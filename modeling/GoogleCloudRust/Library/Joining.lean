import Mathlib.Data.List.Induction

/-! # Partial joins

An operation that joins two values when they fit is associative if both ways of joining three values
fail, or yield the same. Then the grouping of a sequence of values does not matter. Lists are joined
at their boundary, where the last element of one and the first of the other may fit. -/

namespace GoogleCloudRust

variable {α : Type*}

/-! ## Groupings -/

/-- A sequence of chunks with the order in which they are joined. -/
inductive Grouping (α : Type*)
  | chunk (a : α)
  | join (first second : Grouping α)

namespace Grouping

variable {op : α → α → Option α}

def chunks : Grouping α → List α
  | chunk a => [a]
  | join first second => first.chunks ++ second.chunks

def eval (op : α → α → Option α) : Grouping α → Option α
  | chunk a => some a
  | join first second => (first.eval op).bind fun a => (second.eval op).bind (op a)

/-- Joined from the first chunk on. -/
def joinAll (op : α → α → Option α) : List α → Option α
  | [] => none
  | a :: rest => rest.foldlM op a

theorem foldlM_cons_eq_bind
    (hassoc : ∀ a b c, (op a b).bind (fun ab => op ab c) = (op b c).bind (op a)) (a b : α)
    (rest : List α) : (b :: rest).foldlM op a = (rest.foldlM op b).bind (op a) := by
  induction rest generalizing a b with
  | nil =>
      change (op a b).bind some = (some b).bind (op a)
      rw [Option.bind_some, Option.bind_fun_some]
  | cons c rest ih =>
      calc (b :: c :: rest).foldlM op a
          = (op a b).bind fun ab => (c :: rest).foldlM op ab := rfl
        _ = (op a b).bind fun ab => (rest.foldlM op c).bind (op ab) := by simp only [ih]
        _ = (rest.foldlM op c).bind fun cs => (op a b).bind fun ab => op ab cs :=
            Option.bind_comm _ _
        _ = (rest.foldlM op c).bind fun cs => (op b cs).bind (op a) := by simp only [hassoc]
        _ = ((rest.foldlM op c).bind (op b)).bind (op a) := (Option.bind_assoc _ _ _).symm
        _ = ((c :: rest).foldlM op b).bind (op a) := by rw [ih]

theorem joinAll_append
    (hassoc : ∀ a b c, (op a b).bind (fun ab => op ab c) = (op b c).bind (op a))
    {front back : List α} (hfront : front ≠ []) (hback : back ≠ []) :
    joinAll op (front ++ back) =
      (joinAll op front).bind fun a => (joinAll op back).bind (op a) := by
  obtain ⟨a, as, rfl⟩ := List.exists_cons_of_ne_nil hfront
  obtain ⟨b, bs, rfl⟩ := List.exists_cons_of_ne_nil hback
  calc joinAll op (a :: as ++ b :: bs)
      = (as.foldlM op a).bind fun joined => (b :: bs).foldlM op joined := List.foldlM_append
    _ = (as.foldlM op a).bind fun joined => (bs.foldlM op b).bind (op joined) := by
        simp only [foldlM_cons_eq_bind hassoc]

theorem chunks_ne_nil (grouping : Grouping α) : grouping.chunks ≠ [] := by
  induction grouping with
  | chunk a => exact List.cons_ne_nil a []
  | join first second ihFirst ihSecond => exact List.append_ne_nil_of_left_ne_nil ihFirst _

/-- The grouping does not matter. -/
theorem eval_eq_joinAll
    (hassoc : ∀ a b c, (op a b).bind (fun ab => op ab c) = (op b c).bind (op a))
    (grouping : Grouping α) : grouping.eval op = joinAll op grouping.chunks := by
  induction grouping with
  | chunk a => rfl
  | join first second ihFirst ihSecond =>
      rw [eval, chunks, joinAll_append hassoc first.chunks_ne_nil second.chunks_ne_nil, ihFirst,
        ihSecond]

end Grouping

/-! ## Joins at a boundary -/

section Boundary

variable (op : α → α → Option α)

/-- Two neighbours become one if they fit. -/
def boundary (a b : α) : List α :=
  match op a b with
  | some joined => [joined]
  | none => [a, b]

def joinLists (front back : List α) : List α :=
  match front.getLast?, back with
  | some a, b :: rest => front.dropLast ++ boundary op a b ++ rest
  | _, _ => front ++ back

/-- Whether the neighbours of `b` fit does not depend on what is joined first. -/
structure Joins (a b c : α) : Prop where
  both : ∀ ab bc, op a b = some ab → op b c = some bc →
    ∃ abc, op ab c = some abc ∧ op a bc = some abc
  left : ∀ ab, op a b = some ab → op b c = none → op ab c = none
  right : ∀ bc, op a b = none → op b c = some bc → op a bc = none

variable {op}

theorem Joins.assoc {a b c : α} (h : Joins op a b c) :
    (op a b).bind (fun ab => op ab c) = (op b c).bind (op a) := by
  cases hab : op a b with
  | none =>
      cases hbc : op b c with
      | none => rfl
      | some bc => exact (h.right bc hab hbc).symm
  | some ab =>
      cases hbc : op b c with
      | none => exact h.left ab hab hbc
      | some bc =>
          obtain ⟨abc, hleft, hright⟩ := h.both ab bc hab hbc
          exact hleft.trans hright.symm

@[simp] theorem joinLists_nil (front : List α) : joinLists op front [] = front := by
  cases hlast : front.getLast? with
  | none => simp only [joinLists, hlast, List.append_nil]
  | some a => simp only [joinLists, hlast, List.append_nil]

@[simp] theorem nil_joinLists (back : List α) : joinLists op [] back = back := rfl

theorem joinLists_concat_cons (front rest : List α) (a b : α) :
    joinLists op (front ++ [a]) (b :: rest) = front ++ boundary op a b ++ rest := by
  simp only [joinLists, List.getLast?_concat, List.dropLast_concat]

/-- What is in front of the last element does not take part. -/
theorem joinLists_append_left (front : List α) {back : List α} (hback : back ≠ [])
    (others : List α) :
    joinLists op (front ++ back) others = front ++ joinLists op back others := by
  cases back using List.reverseRecOn with
  | nil => exact absurd rfl hback
  | append_singleton back a =>
      cases others with
      | nil => simp
      | cons b rest =>
          rw [← List.append_assoc, joinLists_concat_cons, joinLists_concat_cons]
          simp only [List.append_assoc]

/-- What is behind the first element does not take part. -/
theorem joinLists_append_right {front : List α} (others : List α) (hfront : front ≠ [])
    (back : List α) :
    joinLists op others (front ++ back) = joinLists op others front ++ back := by
  obtain ⟨b, front, rfl⟩ := List.exists_cons_of_ne_nil hfront
  cases others using List.reverseRecOn with
  | nil => rfl
  | append_singleton others a =>
      rw [List.cons_append, joinLists_concat_cons, joinLists_concat_cons]
      simp only [List.append_assoc]

theorem boundary_ne_nil (a b : α) : boundary op a b ≠ [] := by
  rw [boundary]
  split <;> exact List.cons_ne_nil _ _

/-- One element between its two neighbours. -/
theorem Joins.boundary {a b c : α} (h : Joins op a b c) :
    joinLists op (boundary op a b) [c] = joinLists op [a] (boundary op b c) := by
  have hcons : ∀ x y rest, joinLists op [x] (y :: rest) = GoogleCloudRust.boundary op x y ++ rest :=
    fun x y rest => joinLists_concat_cons [] rest x y
  have hconcat : ∀ x y z, joinLists op [x, y] [z] = x :: GoogleCloudRust.boundary op y z :=
    fun x y z => (joinLists_concat_cons [x] [] y z).trans (List.append_nil _)
  cases hab : op a b with
  | none =>
      have hleft : GoogleCloudRust.boundary op a b = [a, b] := by
        rw [GoogleCloudRust.boundary, hab]
      rw [hleft, hconcat]
      cases hbc : op b c with
      | none => simp only [GoogleCloudRust.boundary, hbc, hcons, hab, List.cons_append,
          List.nil_append]
      | some bc => simp only [GoogleCloudRust.boundary, hbc, hcons, h.right bc hab hbc,
          List.append_nil]
  | some ab =>
      have hleft : GoogleCloudRust.boundary op a b = [ab] := by
        rw [GoogleCloudRust.boundary, hab]
      rw [hleft, hcons]
      cases hbc : op b c with
      | none => simp only [GoogleCloudRust.boundary, hbc, hcons, hab, h.left ab hab hbc,
          List.append_nil, List.cons_append, List.nil_append]
      | some bc =>
          obtain ⟨abc, habc, habc'⟩ := h.both ab bc hab hbc
          simp only [GoogleCloudRust.boundary, hbc, hcons, habc, habc']

/-- Lists are joined associatively when their elements are. -/
theorem joinLists_assoc {first second third : List α}
    (h : ∀ a ∈ first, ∀ b ∈ second, ∀ c ∈ third, Joins op a b c) :
    joinLists op (joinLists op first second) third =
      joinLists op first (joinLists op second third) := by
  cases first using List.reverseRecOn with
  | nil => rfl
  | append_singleton first a =>
      cases third with
      | nil => simp
      | cons c third =>
          cases second with
          | nil => simp
          | cons b second =>
              cases second using List.reverseRecOn with
              | nil =>
                  -- The only element in the middle is joined from both sides.
                  have hmiddle := (h a (by simp) b (by simp) c (by simp)).boundary
                  rw [joinLists_concat_cons, List.append_nil]
                  have hback : joinLists op [b] (c :: third) = boundary op b c ++ third :=
                    joinLists_concat_cons [] third b c
                  rw [hback, joinLists_append_left first (boundary_ne_nil a b),
                    joinLists_append_right _ (boundary_ne_nil b c),
                    joinLists_append_left first (List.cons_ne_nil a []), ← hmiddle,
                    List.append_assoc]
                  exact congrArg (first ++ ·)
                    (@joinLists_append_right _ op [c] _ (List.cons_ne_nil c []) third)
              | append_singleton second b' =>
                  rw [joinLists_concat_cons, ← List.append_assoc, joinLists_concat_cons,
                    ← List.cons_append, joinLists_concat_cons]
                  rw [List.cons_append, List.cons_append, joinLists_concat_cons]
                  simp only [List.append_assoc]

end Boundary

end GoogleCloudRust
