import GoogleCloudRust.Model.SendOptimizer

/-! # What the service sees of an optimized connection

The optimizer remembers the preceding request. What it leaves out of the next one is what the
service fills in again from the requests it has accepted. -/

namespace GoogleCloudRust.BigQuery

variable {Descriptor : Type}

/-! ## Redacting a request -/

@[simp] theorem clearSchema_writeStream (req : AppendRowsRequest Descriptor) :
    (clearSchema req).writeStream = req.writeStream := by
  unfold clearSchema
  split <;> rfl

@[simp] theorem extractSchema_clearSchema (req : AppendRowsRequest Descriptor) :
    extractSchema (clearSchema req) = none := by
  rcases hrows : req.rows with _ | (_ | _) <;> simp [clearSchema, extractSchema, hrows]

@[simp] theorem extractSchema_writeStream (req : AppendRowsRequest Descriptor) (name : String) :
    extractSchema { req with writeStream := name } = extractSchema req := rfl

@[simp] theorem payload_clearSchema (req : AppendRowsRequest Descriptor) :
    (clearSchema req).rows.map Rows.payload = req.rows.map Rows.payload := by
  unfold clearSchema
  split <;> simp_all [Rows.payload]

variable [DecidableEq Descriptor]

/-- Schemas count as the same only when there is one. -/
theorem sameSchema_iff {req : AppendRowsRequest Descriptor}
    {prev : Option (WriterSchema Descriptor)} :
    sameSchema req prev ↔ ∃ schema, extractSchema req = some schema ∧ prev = some schema := by
  unfold sameSchema extractSchema
  cases req.rows with
  | none => simp
  | some rows =>
    cases rows <;> rcases prev with _ | (_ | _) <;> simp [eq_comm]

/-! ## What the service fills in -/

namespace Service

variable {history : List (Interpreted Descriptor)} {req : AppendRowsRequest Descriptor}

theorem streamOf_cons {last : Interpreted Descriptor} {name writeStream : String}
    (h : streamOf (last :: history) name = some writeStream) :
    writeStream = if name = "" then last.writeStream else name := by
  unfold streamOf at h
  split at h
  case isTrue hname =>
    split at h <;> simp_all
  case isFalse hname => simp_all

/-- The service remembers the schema of the request it has just been sent. -/
theorem inForce_after {schema : WriterSchema Descriptor} {writeStream : String}
    (hschema : extractSchema req = some schema)
    (h : streamOf ((interpretOne history req).toList ++ history) req.writeStream =
      some writeStream) :
    inForce ((interpretOne history req).toList ++ history) writeStream = some schema := by
  cases hs : streamOf history req.writeStream with
  | none => simp [interpretOne, hs] at h
  | some name =>
    have hname : writeStream = name := by
      simp only [interpretOne, hs, Option.map_some, Option.toList_some, List.singleton_append] at h
      rw [streamOf_cons h]
      split
      case isTrue => rfl
      case isFalse hne => simpa [streamOf, hne] using hs
    simp [interpretOne, hs, inForce, hschema, hname]

theorem interpretOne_clearSchema {schema : WriterSchema Descriptor}
    (hschema : extractSchema req = some schema)
    (hforce : ∀ writeStream, streamOf history req.writeStream = some writeStream →
      inForce history writeStream = some schema) :
    interpretOne history (clearSchema req) = interpretOne history req := by
  unfold interpretOne
  rw [clearSchema_writeStream, extractSchema_clearSchema, payload_clearSchema, hschema]
  cases hs : streamOf history req.writeStream with
  | none => rfl
  | some name => simp [hforce name hs]

theorem interpretOne_clearWriteStream (hsingle : Single history)
    (hprev : history.head?.map Interpreted.writeStream = some req.writeStream) :
    interpretOne history { req with writeStream := "" } = interpretOne history req := by
  have hs : streamOf history "" = streamOf history req.writeStream := by
    simp [streamOf, hsingle, hprev]
  simp [interpretOne, hs]

/-- A connection that repeats its last request has still used a single write stream. -/
theorem single_after {schema : WriterSchema Descriptor} (hsingle : Single history)
    (hschema : extractSchema req = some schema)
    (hprev : history.head?.map Interpreted.writeStream = some req.writeStream)
    (hforce : inForce history req.writeStream = some schema) (hne : req.writeStream ≠ "") :
    Single ((interpretOne history req).toList ++ history) := by
  cases history with
  | nil => simp at hprev
  | cons last history =>
    have hlast : last.writeStream = req.writeStream := by simpa using hprev
    have hlast' : last.schema = some schema := by simpa [inForce, hlast] using hforce
    have hall : ∀ r ∈ last :: history,
        r.writeStream = req.writeStream ∧ r.schema = some schema := by
      intro r hr
      have h := hsingle r hr last (by simp)
      exact ⟨h.1.trans hlast, h.2.trans hlast'⟩
    have hnew : interpretOne (last :: history) req =
        some ⟨req.writeStream, some schema, req.rows.map Rows.payload⟩ := by
      simp [interpretOne, streamOf, hne, hschema]
    have hall' : ∀ r ∈ (interpretOne (last :: history) req).toList ++ last :: history,
        r.writeStream = req.writeStream ∧ r.schema = some schema := by
      intro r hr
      rw [hnew, List.mem_append] at hr
      cases hr with
      | inl hr =>
        simp only [Option.toList_some, List.mem_singleton] at hr
        simp [hr]
      | inr hr => exact hall r hr
    intro r hr r' hr'
    exact ⟨(hall' r hr).1.trans (hall' r' hr').1.symm, (hall' r hr).2.trans (hall' r' hr').2.symm⟩

end Service

/-! ## Optimizer and service in step -/

namespace SendOptimizer

open Service

/-- The optimizer after the request `last`. -/
structure Remembers (optimizer : SendOptimizer Descriptor)
    (last : AppendRowsRequest Descriptor) : Prop where
  prevWriteStream : optimizer.prevWriteStream = last.writeStream
  prevSchema : optimizer.prevSchema = extractSchema last

/-- What the service remembers after the request `last`, and the optimizer relies on. -/
structure InStep (optimizer : SendOptimizer Descriptor) (last : AppendRowsRequest Descriptor)
    (history : List (Interpreted Descriptor)) : Prop extends Remembers optimizer last where
  inForce : ∀ schema writeStream, extractSchema last = some schema →
    streamOf history last.writeStream = some writeStream →
    inForce history writeStream = some schema
  single : optimizer.keepWriteStream = false → last.writeStream ≠ "" →
    Single history ∧ history.head?.map Interpreted.writeStream = some last.writeStream

/-- `optimize` either redacts a repetition of the preceding request or sends the request whole. -/
theorem optimize_cases (optimizer : SendOptimizer Descriptor)
    (req : AppendRowsRequest Descriptor) :
    (∃ schema, extractSchema req = some schema ∧ optimizer.prevSchema = some schema ∧
      req.writeStream = optimizer.prevWriteStream ∧ (optimizer.optimize req).1 = optimizer ∧
      (optimizer.optimize req).2 = clearSchema (if optimizer.keepWriteStream then req
        else { req with writeStream := "" })) ∨
    (¬ (req.writeStream = optimizer.prevWriteStream ∧
        ∃ schema, extractSchema req = some schema ∧ optimizer.prevSchema = some schema) ∧
      (optimizer.optimize req).1 = ⟨req.writeStream, extractSchema req, true⟩ ∧
      (optimizer.optimize req).2 = req) := by
  unfold optimize
  split
  case isTrue h =>
    obtain ⟨schema, hreq, hprev⟩ := sameSchema_iff.mp h.2
    refine .inl ⟨schema, hreq, hprev, h.1, rfl, ?_⟩
    cases optimizer.keepWriteStream <;> rfl
  case isFalse h =>
    rw [sameSchema_iff] at h
    exact .inr ⟨h, rfl, rfl⟩

omit [DecidableEq Descriptor] in
theorem remembers_new (initialReq : AppendRowsRequest Descriptor) :
    Remembers (new initialReq) initialReq := ⟨rfl, rfl⟩

theorem remembers_optimize (optimizer : SendOptimizer Descriptor)
    (req : AppendRowsRequest Descriptor) : Remembers (optimizer.optimize req).1 req := by
  obtain ⟨schema, hreq, hprev, hs, hafter, -⟩ | ⟨-, hafter, -⟩ := optimize_cases optimizer req
  · rw [hafter]
    exact ⟨hs.symm, by rw [hprev, hreq]⟩
  · rw [hafter]
    exact ⟨rfl, rfl⟩

theorem inStep_new (initialReq : AppendRowsRequest Descriptor) :
    InStep (new initialReq) initialReq (interpretOne [] initialReq).toList where
  toRemembers := remembers_new initialReq
  inForce schema writeStream hschema hs := by
    rw [← List.append_nil (interpretOne [] initialReq).toList] at hs ⊢
    exact inForce_after hschema hs
  single _ hne := by simp [interpretOne, streamOf, hne, Single]

variable {optimizer : SendOptimizer Descriptor} {last req : AppendRowsRequest Descriptor}
  {history : List (Interpreted Descriptor)}

theorem InStep.interpretOne_optimize (h : InStep optimizer last history) :
    interpretOne history (optimizer.optimize req).2 = interpretOne history req := by
  obtain ⟨schema, hreq, hprev, hs, -, hsent⟩ | ⟨-, -, hsent⟩ := optimize_cases optimizer req
  · have hlast : extractSchema last = some schema := by rw [← h.prevSchema, hprev]
    rw [h.prevWriteStream] at hs
    have hclear : interpretOne history (clearSchema req) = interpretOne history req :=
      interpretOne_clearSchema hreq fun name hname =>
        h.inForce schema name hlast (by rw [← hs, hname])
    rw [hsent]
    cases hkeep : optimizer.keepWriteStream with
    | true => simpa using hclear
    | false =>
      by_cases hne : last.writeStream = ""
      · -- The write stream is already missing.
        have : ({ req with writeStream := "" } : AppendRowsRequest Descriptor) = req := by
          rw [← hne, ← hs]
        simpa [this] using hclear
      · obtain ⟨hsingle, hhead⟩ := h.single hkeep hne
        rw [← hs] at hhead
        have hforce : Service.inForce history req.writeStream = some schema := by
          refine h.inForce schema req.writeStream hlast ?_
          rw [← hs] at hne ⊢
          simp [streamOf, hne]
        have hstream := interpretOne_clearWriteStream hsingle hhead
        rw [← hstream]
        refine interpretOne_clearSchema hreq fun name hname => ?_
        have : name = req.writeStream := by
          simpa [streamOf, hsingle, hhead, eq_comm] using hname
        rw [this, hforce]
  · rw [hsent]

theorem InStep.optimize (h : InStep optimizer last history) :
    InStep (optimizer.optimize req).1 req ((interpretOne history req).toList ++ history) := by
  refine ⟨remembers_optimize optimizer req, fun _ _ => inForce_after, fun hkeep hne => ?_⟩
  obtain ⟨schema, hreq, hprev, hs, hafter, -⟩ | ⟨-, hafter, -⟩ := optimize_cases optimizer req
  · rw [hafter] at hkeep
    rw [h.prevWriteStream] at hs
    obtain ⟨hsingle, hhead⟩ := h.single hkeep (hs ▸ hne)
    have hforce : Service.inForce history req.writeStream = some schema := by
      refine h.inForce schema req.writeStream (by rw [← h.prevSchema, hprev]) ?_
      rw [← hs]
      simp [streamOf, hne]
    refine ⟨single_after hsingle hreq (by rw [hhead, hs]) hforce hne, ?_⟩
    simp [interpretOne, streamOf, hne]
  · simp [hafter] at hkeep

theorem InStep.interpret_optimizeAll (h : InStep optimizer last history)
    (reqs : List (AppendRowsRequest Descriptor)) :
    interpret history (optimizer.optimizeAll reqs) = interpret history reqs := by
  induction reqs generalizing optimizer last history with
  | nil => rfl
  | cons req reqs ih =>
    rw [optimizeAll, interpret, interpret, h.interpretOne_optimize, ih h.optimize]

theorem interpret_sequence (reqs : List (AppendRowsRequest Descriptor)) :
    interpret [] (sequence reqs) = interpret [] reqs := by
  cases reqs with
  | nil => rfl
  | cons initialReq reqs =>
    have h := inStep_new initialReq
    rw [sequence, interpret, interpret, List.append_nil, h.interpret_optimizeAll]

/-! ## What is left out -/

/-- `req` does not go to the write stream of `last` with its schema. -/
def Changes (last req : AppendRowsRequest Descriptor) : Prop :=
  req.writeStream ≠ last.writeStream ∨ extractSchema req ≠ extractSchema last

theorem optimizeAll_writeStream (reqs : List (AppendRowsRequest Descriptor))
    (hkeep : optimizer.keepWriteStream = true) :
    (optimizer.optimizeAll reqs).map AppendRowsRequest.writeStream =
      reqs.map AppendRowsRequest.writeStream := by
  induction reqs generalizing optimizer with
  | nil => rfl
  | cons req reqs ih =>
    obtain ⟨-, -, -, -, hafter, hsent⟩ | ⟨-, hafter, hsent⟩ := optimize_cases optimizer req
    · simp [optimizeAll, hafter, hsent, hkeep, ih hkeep]
    · simp [optimizeAll, hsent, ih (show (optimizer.optimize req).1.keepWriteStream = true by
        rw [hafter])]

theorem Remembers.optimize_of_changes (h : Remembers optimizer last) (hchanges : Changes last req) :
    (optimizer.optimize req).1.keepWriteStream = true ∧ (optimizer.optimize req).2 = req := by
  obtain ⟨schema, hreq, hprev, hs, -⟩ | ⟨-, hafter, hsent⟩ := optimize_cases optimizer req
  · cases hchanges with
    | inl hne => exact absurd (hs.trans h.prevWriteStream) hne
    | inr hne => exact absurd (hreq.trans (hprev.symm.trans h.prevSchema)) hne
  · rw [hafter]
    exact ⟨rfl, hsent⟩

/-- After a change at position `i` every request keeps its write stream. -/
theorem Remembers.writeStream_of_changes {p r sent : AppendRowsRequest Descriptor}
    {reqs : List (AppendRowsRequest Descriptor)} {i j : ℕ} (h : Remembers optimizer last)
    (hp : (last :: reqs)[i]? = some p) (hr : reqs[i]? = some r) (hchanges : Changes p r)
    (hij : i ≤ j) (hreq : reqs[j]? = some req)
    (hsent : (optimizer.optimizeAll reqs)[j]? = some sent) :
    sent.writeStream = req.writeStream := by
  induction reqs generalizing optimizer last i j with
  | nil => simp at hr
  | cons head reqs ih =>
    cases i with
    | zero =>
      simp only [List.getElem?_cons_zero, Option.some.injEq] at hp hr
      subst hp hr
      obtain ⟨hkeep, hwhole⟩ := h.optimize_of_changes hchanges
      have hall : (optimizer.optimizeAll (head :: reqs)).map AppendRowsRequest.writeStream =
          (head :: reqs).map AppendRowsRequest.writeStream := by
        rw [optimizeAll, List.map_cons, hwhole, optimizeAll_writeStream reqs hkeep, List.map_cons]
      have hat := congrArg (fun names => names[j]?) hall
      simpa only [List.getElem?_map, hreq, hsent, Option.map_some, Option.some.injEq] using hat
    | succ i =>
      obtain ⟨j, rfl⟩ : ∃ k, j = k + 1 := ⟨j - 1, by omega⟩
      exact ih (remembers_optimize optimizer head) hp hr (by omega) hreq hsent

/-- A schema is left out only where the preceding request had it. -/
theorem Remembers.schema_of_omitted {sent : AppendRowsRequest Descriptor}
    {reqs : List (AppendRowsRequest Descriptor)} {j : ℕ} (h : Remembers optimizer last)
    (hreq : reqs[j]? = some req) (hsent : (optimizer.optimizeAll reqs)[j]? = some sent)
    (homitted : extractSchema sent ≠ extractSchema req) :
    ∃ p, (last :: reqs)[j]? = some p ∧ ¬ Changes p req := by
  induction reqs generalizing optimizer last j with
  | nil => simp at hreq
  | cons head reqs ih =>
    cases j with
    | zero =>
      simp only [optimizeAll, List.getElem?_cons_zero, Option.some.injEq] at hreq hsent
      subst hreq hsent
      refine ⟨last, rfl, fun hchanges => ?_⟩
      rw [(h.optimize_of_changes hchanges).2] at homitted
      exact homitted rfl
    | succ j => exact ih (remembers_optimize optimizer head) hreq hsent

/-- The service interprets the optimized requests as the original ones; write streams are kept
from the first change on, and a schema is left out only when the preceding request had the same
write stream and schema. -/
theorem sequence_unchanged_for_service (reqs : List (AppendRowsRequest Descriptor)) :
    interpret [] (sequence reqs) = interpret [] reqs ∧
    (∀ (i j : ℕ) (p r req sent : AppendRowsRequest Descriptor), reqs[i]? = some p →
      reqs[i + 1]? = some r →
      (r.writeStream ≠ p.writeStream ∨ extractSchema r ≠ extractSchema p) → i + 1 ≤ j →
      reqs[j]? = some req → (sequence reqs)[j]? = some sent →
      sent.writeStream = req.writeStream) ∧
    ∀ (j : ℕ) (req sent : AppendRowsRequest Descriptor), reqs[j]? = some req →
      (sequence reqs)[j]? = some sent → extractSchema sent ≠ extractSchema req →
      ∃ (i : ℕ) (p : AppendRowsRequest Descriptor), j = i + 1 ∧ reqs[i]? = some p ∧
        req.writeStream = p.writeStream ∧ extractSchema req = extractSchema p := by
  refine ⟨interpret_sequence reqs, ?_, ?_⟩
  · intro i j p r req sent hp hr hchanges hij hreq hsent
    cases reqs with
    | nil => simp at hp
    | cons initialReq reqs =>
      obtain ⟨j, rfl⟩ : ∃ k, j = k + 1 := ⟨j - 1, by omega⟩
      exact (remembers_new initialReq).writeStream_of_changes hp hr hchanges (by omega) hreq hsent
  · intro j req sent hreq hsent homitted
    cases reqs with
    | nil => simp at hreq
    | cons initialReq reqs =>
      cases j with
      | zero =>
        simp only [sequence, List.getElem?_cons_zero, Option.some.injEq] at hreq hsent
        exact absurd (by rw [← hreq, ← hsent]) homitted
      | succ j =>
        rw [List.getElem?_cons_succ] at hreq
        obtain ⟨p, hp, hsame⟩ := (remembers_new initialReq).schema_of_omitted hreq hsent homitted
        rw [Changes, not_or, not_not, not_not] at hsame
        exact ⟨j, p, rfl, hp, hsame⟩

end SendOptimizer

end GoogleCloudRust.BigQuery
