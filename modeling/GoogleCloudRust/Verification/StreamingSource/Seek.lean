import GoogleCloudRust.Model.StreamingSource
import GoogleCloudRust.Verification.PerformUpload.Transfer

/-! # What a source yields after a seek -/

namespace GoogleCloudRust.StreamingSource

open PerformUpload (cutsCleanly InProgressUpload.unpersisted flatten_unpersisted_iff)

/-! ## Reading to the end -/

namespace Source

/-- The results of `next` until it returns `None`, put together. -/
inductive Collects : Source → Bytes → Prop
  | ended {source source' : Source} (h : source.next = (source', none)) : Collects source []
  | more {source source' : Source} {b rest : Bytes} (h : source.next = (source', some b))
      (hrest : Collects source' rest) : Collects source (b ++ rest)

/-- What a source has still to yield. -/
def pending : Source → Bytes
  | bytes source => source.current.getD []
  | iter source => source.current.flatten

theorem collects_pending (source : Source) : source.Collects source.pending := by
  cases source with
  | bytes source =>
      obtain ⟨contents, current⟩ := source
      cases current with
      | none => exact .ended rfl
      | some b =>
          have hrest : Collects (bytes ⟨contents, none⟩) [] := .ended rfl
          have hmore : Collects (bytes ⟨contents, some b⟩) (b ++ []) := .more rfl hrest
          rwa [List.append_nil] at hmore
  | iter source =>
      obtain ⟨contents, current⟩ := source
      induction current with
      | nil => exact .ended rfl
      | cons b current ih => exact .more rfl ih

theorem Collects.unique {source : Source} {data data' : Bytes} (h : source.Collects data)
    (h' : source.Collects data') : data = data' := by
  induction h generalizing data' with
  | ended hnone =>
      cases h' with
      | ended => rfl
      | more hsome => cases hnone.symm.trans hsome
  | more hsome hrest ih =>
      cases h' with
      | ended hnone => cases hsome.symm.trans hnone
      | more hsome' hrest' =>
          cases hsome.symm.trans hsome'
          rw [ih hrest']

theorem collects_iff {source : Source} {data : Bytes} :
    source.Collects data ↔ source.pending = data := by
  constructor
  · intro h
    exact (collects_pending source).unique h
  · rintro rfl
    exact collects_pending source

/-! ## Seeking -/

/-- The chunks that every seek starts from. -/
def contents : Source → List Bytes
  | bytes source => [source.contents]
  | iter source => source.contents

theorem seek_call (source : Source) (call : Call) (offset : ℕ) :
    (source.call call).seek offset = source.seek offset := by
  cases source with
  | bytes source =>
      cases call with
      | next => rfl
      | seek other => rfl
  | iter source =>
      cases call with
      | next =>
          obtain ⟨contents, current⟩ := source
          cases current with
          | nil => rfl
          | cons b current => rfl
      | seek other => rfl

/-- Seeking does not depend on what was read. -/
theorem seek_run (source : Source) (calls : List Call) (offset : ℕ) :
    (source.run calls).seek offset = source.seek offset := by
  induction calls generalizing source with
  | nil => rfl
  | cons call calls ih => exact (ih (source.call call)).trans (seek_call source call offset)

/-- The offset is not inside a chunk of an iterator, or in the middle of one. -/
def Lands (offset : ℕ) : Source → Prop
  | bytes _ => True
  | iter source => cutsCleanly offset source.contents = true

end Source

theorem seekFrom_eq_unpersisted (offset : ℕ) (contents : List Bytes) :
    IterSource.seekFrom offset contents = InProgressUpload.unpersisted offset contents := by
  induction contents generalizing offset with
  | nil => rfl
  | cons b contents ih => rw [IterSource.seekFrom, InProgressUpload.unpersisted, ih, ih]

namespace Source

theorem pending_seek_iff (source : Source) (offset : ℕ) :
    (source.seek offset).pending = source.contents.flatten.drop offset ↔ source.Lands offset := by
  cases source with
  | bytes source =>
      simp only [seek, pending, contents, BytesSource.seek, Lands, ← List.drop_eq_drop_min]
      simp
  | iter source =>
      have hseek : ((iter source).seek offset).pending =
          (InProgressUpload.unpersisted offset source.contents).flatten := by
        rw [← seekFrom_eq_unpersisted]
        rfl
      rw [hseek]
      exact flatten_unpersisted_iff offset source.contents

theorem seek_law_iff (source : Source) (calls : List Call) (offset : ℕ) :
    ((source.run calls).seek offset).Collects (source.contents.flatten.drop
      (min offset source.contents.flatten.length)) ↔ source.Lands offset := by
  rw [collects_iff, seek_run, ← List.drop_eq_drop_min]
  exact pending_seek_iff source offset

/-- Of a chunk of four bytes a seek to the last one yields three. -/
theorem seek_in_chunk : ¬ ∀ (source : Source) (calls : List Call) (offset : ℕ),
    ((source.run calls).seek offset).Collects (source.contents.flatten.drop
      (min offset source.contents.flatten.length)) := by
  intro h
  have hpending := collects_iff.mp (h (iter (.new [[1, 2, 3, 4]])) [.next] 3)
  revert hpending
  decide

end Source

end GoogleCloudRust.StreamingSource
