import GoogleCloudRust.Library.Joining
import GoogleCloudRust.Model.ResultSet

/-! # Merging chunked values

Merging is associative: a value that was split into chunks is the same again, whatever chunks are
merged first. -/

namespace GoogleCloudRust.ResultSet

/-- The merged value, if the values are of a kind that can be merged. -/
def merge (target source : Value) : Option Value := (mergeValues target source).toOption

/-! ## Kinds -/

theorem mergeValues_stringValue (target source : String) :
    mergeValues (.stringValue target) (.stringValue source) =
      .ok (.stringValue (target ++ source)) := by
  rw [mergeValues]

theorem mergeValues_cons {target : List Value} {targetLast : Value}
    (htarget : target.getLast? = some targetLast) {sourceFirst : Value} (source : List Value)
    (hlists : ∀ last first, targetLast = .listValue last → sourceFirst = .listValue first →
      mergeValues targetLast sourceFirst = .ok (.listValue (joinLists merge last first))) :
    mergeValues (.listValue target) (.listValue (sourceFirst :: source)) =
      .ok (.listValue (target.dropLast ++ boundary merge targetLast sourceFirst ++ source)) := by
  rw [mergeValues, htarget]
  -- Two strings and two lists are merged, all other values stay apart.
  cases targetLast <;> cases sourceFirst
  case listValue.listValue last first =>
      simp only [boundary, merge, hlists last first rfl rfl]
      rfl
  all_goals
    simp only [boundary, merge, mergeValues]
    rfl

/-- Lists are joined at their boundary, where values that cannot be merged stay apart. -/
theorem mergeValues_listValue (target source : List Value) :
    mergeValues (.listValue target) (.listValue source) =
      .ok (.listValue (joinLists merge target source)) := by
  cases source with
  | nil => rw [mergeValues, joinLists_nil]
  | cons sourceFirst source =>
      cases htarget : target.getLast? with
      | none =>
          rw [List.getLast?_eq_none_iff.mp htarget, mergeValues, nil_joinLists]
          rfl
      | some targetLast =>
          have hlists : ∀ last first, targetLast = .listValue last → sourceFirst = .listValue first →
              mergeValues targetLast sourceFirst = .ok (.listValue (joinLists merge last first)) := by
            intro last first hlast hfirst
            rw [hlast, hfirst]
            exact mergeValues_listValue last first
          simp only [mergeValues_cons htarget source hlists, joinLists, htarget]
termination_by sizeOf source
decreasing_by
  rw [hfirst]
  simp
  omega

theorem merge_listValue (target source : List Value) :
    merge (.listValue target) (.listValue source) =
      some (.listValue (joinLists merge target source)) := by
  rw [merge, mergeValues_listValue]
  rfl

theorem merge_stringValue (target source : String) :
    merge (.stringValue target) (.stringValue source) = some (.stringValue (target ++ source)) := by
  rw [merge, mergeValues_stringValue]
  rfl

/-- The two kinds that can be merged, and the error of all others. -/
theorem mergeValues_cases (target source : Value) :
    (∃ front back, target = .stringValue front ∧ source = .stringValue back) ∨
    (∃ front back, target = .listValue front ∧ source = .listValue back) ∨
    mergeValues target source =
      .error (.internal "Incompatible types for merging chunked values") := by
  cases target <;> cases source
  case stringValue.stringValue front back => exact .inl ⟨front, back, rfl, rfl⟩
  case listValue.listValue front back => exact .inr (.inl ⟨front, back, rfl, rfl⟩)
  all_goals
    right
    right
    simp only [mergeValues]

/-- A merged value is a string of strings or a list of lists. -/
theorem merge_eq_some {target source merged : Value} (h : merge target source = some merged) :
    (∃ front back, target = .stringValue front ∧ source = .stringValue back ∧
      merged = .stringValue (front ++ back)) ∨
    (∃ front back, target = .listValue front ∧ source = .listValue back ∧
      merged = .listValue (joinLists merge front back)) := by
  rcases mergeValues_cases target source with
    ⟨front, back, rfl, rfl⟩ | ⟨front, back, rfl, rfl⟩ | herror
  · rw [merge_stringValue, Option.some_inj] at h
    exact .inl ⟨front, back, rfl, rfl, h.symm⟩
  · rw [merge_listValue, Option.some_inj] at h
    exact .inr ⟨front, back, rfl, rfl, h.symm⟩
  · rw [merge, herror] at h
    cases h

/-! ## Three values -/

/-- Whether a value can be merged with its neighbours depends on its kind only, which merging
keeps. -/
theorem merge_joins (first middle last : Value) : Joins merge first middle last := by
  refine ⟨?_, ?_, ?_⟩
  · intro front back hfront hback
    rcases merge_eq_some hfront with ⟨s, t, rfl, rfl, rfl⟩ | ⟨xs, ys, rfl, hmiddle, rfl⟩
    · rcases merge_eq_some hback with ⟨_, u, ht, rfl, rfl⟩ | ⟨_, _, ht, -⟩
      · cases ht
        refine ⟨.stringValue (s ++ t ++ u), merge_stringValue _ _, ?_⟩
        rw [merge_stringValue, String.append_assoc]
      · cases ht
    · rcases merge_eq_some hback with ⟨_, _, hys, -⟩ | ⟨_, zs, hys, rfl, rfl⟩
      · cases hmiddle.symm.trans hys
      · cases hmiddle.symm.trans hys
        refine ⟨.listValue (joinLists merge (joinLists merge xs ys) zs), merge_listValue _ _, ?_⟩
        rw [merge_listValue, joinLists_assoc]
        -- Only elements of the list in the middle are merged from both sides.
        intro x hx y hy z hz
        exact merge_joins x y z
  · intro front hfront hback
    rw [Option.eq_none_iff_forall_ne_some]
    intro all hall
    rcases merge_eq_some hfront with ⟨s, t, rfl, rfl, rfl⟩ | ⟨xs, ys, rfl, rfl, rfl⟩
    · rcases merge_eq_some hall with ⟨_, u, -, rfl, -⟩ | ⟨_, _, h, -⟩
      · rw [merge_stringValue] at hback
        cases hback
      · cases h
    · rcases merge_eq_some hall with ⟨_, _, h, -⟩ | ⟨_, zs, -, rfl, -⟩
      · cases h
      · rw [merge_listValue] at hback
        cases hback
  · intro back hfront hback
    rw [Option.eq_none_iff_forall_ne_some]
    intro all hall
    rcases merge_eq_some hback with ⟨t, u, rfl, rfl, rfl⟩ | ⟨ys, zs, rfl, rfl, rfl⟩
    · rcases merge_eq_some hall with ⟨s, _, rfl, -⟩ | ⟨_, _, -, h, -⟩
      · rw [merge_stringValue] at hfront
        cases hfront
      · cases h
    · rcases merge_eq_some hall with ⟨_, _, -, h, -⟩ | ⟨xs, _, rfl, -⟩
      · cases h
      · rw [merge_listValue] at hfront
        cases hfront
termination_by sizeOf middle
decreasing_by
  rw [hmiddle, Value.listValue.sizeOf_spec]
  exact Nat.lt_add_left 1 (List.sizeOf_lt_of_mem hy)

theorem merge_assoc (first middle last : Value) :
    (merge first middle).bind (fun front => merge front last) =
      (merge middle last).bind (merge first) :=
  (merge_joins first middle last).assoc

/-! ## Errors -/

def orIncompatible : Option Value → Except Error Value
  | some merged => .ok merged
  | none => .error (.internal "Incompatible types for merging chunked values")

theorem orIncompatible_bind (merged : Option Value) (f : Value → Option Value) :
    (orIncompatible merged >>= fun value => orIncompatible (f value)) =
      orIncompatible (merged.bind f) := by
  cases merged <;> rfl

/-- There is one error only. -/
theorem mergeValues_eq (target source : Value) :
    mergeValues target source = orIncompatible (merge target source) := by
  rcases mergeValues_cases target source with
    ⟨front, back, rfl, rfl⟩ | ⟨front, back, rfl, rfl⟩ | herror
  · rw [merge_stringValue, mergeValues_stringValue, orIncompatible]
  · rw [merge_listValue, mergeValues_listValue, orIncompatible]
  · rw [merge, herror, Except.toOption, orIncompatible]

/-- Both ways of merging three values fail with the same error or yield the same value, and the
chunks of a value yield the same in whatever order they are merged. -/
theorem mergeValues_assoc (first middle last : Value) :
    (mergeValues first middle >>= fun front => mergeValues front last) =
        (mergeValues middle last >>= fun back => mergeValues first back) ∧
      ∀ grouping other : Grouping Value, grouping.chunks = other.chunks →
        grouping.eval merge = other.eval merge := by
  constructor
  · calc (mergeValues first middle >>= fun front => mergeValues front last)
        = orIncompatible ((merge first middle).bind fun front => merge front last) := by
          simp only [mergeValues_eq, orIncompatible_bind]
      _ = orIncompatible ((merge middle last).bind (merge first)) := by rw [merge_assoc]
      _ = (mergeValues middle last >>= fun back => mergeValues first back) := by
          simp only [mergeValues_eq, orIncompatible_bind]
  · intro grouping other hchunks
    rw [grouping.eval_eq_joinAll merge_assoc, other.eval_eq_joinAll merge_assoc, hchunks]

end GoogleCloudRust.ResultSet
