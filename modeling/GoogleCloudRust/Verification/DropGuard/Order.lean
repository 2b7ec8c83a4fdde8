import GoogleCloudRust.Library.Interleaving
import GoogleCloudRust.Model.DropGuard

/-! # The order of commits and rollbacks

Every dispatch but the drop guard's disarms the guard first, and the guard goes only once. So there
is one rollback at most, and none after a commit. -/

namespace GoogleCloudRust.ReadWrite.DropGuard

open LazyTransaction (Error TransactionState)

variable {system : System}

def Rpc.isRollback : Rpc → Bool
  | .rollback _ => true
  | .commit _ => false

/-- Only commits were dispatched. -/
def Commits (system : System) : Prop := ∀ rpc ∈ system.dispatched, ∃ id, rpc = .commit id

/-- What was dispatched, by where the runner is. -/
def Ordered (system : System) : Prop :=
  match system.runner with
  | .working | .beginning => system.dispatched = []
  | .committing _ _ => Commits system ∧ system.transaction.disarmed = true
  | .rollingBack => ∃ id, system.dispatched = [.rollback id] ∧ system.transaction.disarmed = true
  | .ended => system.dispatched = [] ∨ (Commits system ∧ system.transaction.disarmed = true) ∨
      ∃ id, system.dispatched = [.rollback id] ∧
        (system.transaction.disarmed = true ∨ system.dropped = true)

/-- A step that dispatches nothing and leaves the runner where it is. -/
theorem Ordered.keep {next : System} (h : Ordered system) (hrunner : next.runner = system.runner)
    (hdispatched : next.dispatched = system.dispatched)
    (hdisarmed : system.transaction.disarmed = true → next.transaction.disarmed = true)
    (hdropped : system.dropped = true → next.dropped = true) : Ordered next := by
  unfold Ordered Commits at *
  rw [hrunner, hdispatched]
  cases hcase : system.runner with
  | working =>
    rw [hcase] at h
    exact h
  | beginning =>
    rw [hcase] at h
    exact h
  | committing id retried =>
    rw [hcase] at h
    exact ⟨h.1, hdisarmed h.2⟩
  | rollingBack =>
    rw [hcase] at h
    obtain ⟨id, hrollback, harmed⟩ := h
    exact ⟨id, hrollback, hdisarmed harmed⟩
  | ended =>
    rw [hcase] at h
    obtain hnone | ⟨hcommits, harmed⟩ | ⟨id, hrollback, harmed⟩ := h
    · exact .inl hnone
    · exact .inr (.inl ⟨hcommits, hdisarmed harmed⟩)
    · exact .inr (.inr ⟨id, hrollback, harmed.imp hdisarmed hdropped⟩)

/-- The attempt is over. -/
theorem Ordered.finish {next : System} (h : Ordered system) (hrunner : next.runner = .ended)
    (hdispatched : next.dispatched = system.dispatched)
    (hdisarmed : system.transaction.disarmed = true → next.transaction.disarmed = true)
    (hdropped : system.dropped = true → next.dropped = true) : Ordered next := by
  unfold Ordered Commits at *
  rw [hrunner, hdispatched]
  cases hcase : system.runner with
  | working =>
    rw [hcase] at h
    exact .inl h
  | beginning =>
    rw [hcase] at h
    exact .inl h
  | committing id retried =>
    rw [hcase] at h
    exact .inr (.inl ⟨h.1, hdisarmed h.2⟩)
  | rollingBack =>
    rw [hcase] at h
    obtain ⟨id, hrollback, harmed⟩ := h
    exact .inr (.inr ⟨id, hrollback, .inl (hdisarmed harmed)⟩)
  | ended =>
    rw [hcase] at h
    obtain hnone | ⟨hcommits, harmed⟩ | ⟨id, hrollback, harmed⟩ := h
    · exact .inl hnone
    · exact .inr (.inl ⟨hcommits, hdisarmed harmed⟩)
    · exact .inr (.inr ⟨id, hrollback, harmed.imp hdisarmed hdropped⟩)

/-! ## What an access or a statement leaves alone -/

theorem access_disarmed (client : DatabaseClient) (transaction : ReadWriteTransaction)
    (access : Access) : (transaction.access client access).disarmed = transaction.disarmed := by
  cases access with
  | recordIfAborted error =>
    simp only [ReadWriteTransaction.access, ReadWriteTransaction.recordIfAborted]
    split
    · rfl
    · split <;> rfl
  | _ => rfl

@[simp] theorem access_disarmed' (access : Access) :
    (system.access access).transaction.disarmed = system.transaction.disarmed :=
  access_disarmed system.client system.transaction access

/-- Statements touch only the shared state, the list of statements and the ids handed out. -/
structure Frame (system next : System) : Prop where
  runner : next.runner = system.runner
  dispatched : next.dispatched = system.dispatched
  disarmed : next.transaction.disarmed = system.transaction.disarmed
  dropped : next.dropped = system.dropped
  clones : next.clones = system.clones
  client : next.client = system.client

theorem Frame.refl (system : System) : Frame system system := ⟨rfl, rfl, rfl, rfl, rfl, rfl⟩

theorem Frame.trans {first second third : System} (h : Frame first second)
    (h' : Frame second third) : Frame first third where
  runner := h'.runner.trans h.runner
  dispatched := h'.dispatched.trans h.dispatched
  disarmed := h'.disarmed.trans h.disarmed
  dropped := h'.dropped.trans h.dropped
  clones := h'.clones.trans h.clones
  client := h'.client.trans h.client

theorem frame_setStatement (index : ℕ) (statement : Statement) :
    Frame system (system.setStatement index statement) := ⟨rfl, rfl, rfl, rfl, rfl, rfl⟩

theorem frame_access (access : Access) : Frame system (system.access access) :=
  ⟨rfl, rfl, access_disarmed' access, rfl, rfl, rfl⟩

theorem frame_hand (id : Bytes) : Frame system (system.hand id) := ⟨rfl, rfl, rfl, rfl, rfl, rfl⟩

theorem frame_recordServiceError (error : Option Error) :
    Frame system (system.recordServiceError error) := by
  cases error with
  | none => exact Frame.refl system
  | some error => exact frame_access _

theorem frame_startAnswered (index : ℕ) (id : Option Bytes) (error : Option Error) :
    Frame system (system.startAnswered index id error) := by
  have hrecorded : Frame system (system.recordServiceError error) := frame_recordServiceError error
  unfold System.startAnswered
  dsimp only
  split
  · exact ((hrecorded.trans (frame_hand _)).trans (frame_access _)).trans (frame_setStatement _ _)
  · exact (hrecorded.trans (frame_access _)).trans (frame_setStatement _ _)
  · exact (hrecorded.trans (frame_access _)).trans (frame_setStatement _ _)

theorem frame_poll (index : ℕ) : Frame system (system.poll index) := by
  unfold System.poll
  split
  · exact frame_setStatement _ _
  · split
    · exact frame_setStatement _ _
    · exact Frame.refl system
    · exact (frame_access _).trans ⟨rfl, rfl, rfl, rfl, rfl, rfl⟩
    · exact frame_setStatement _ _

theorem frame_perform (index : ℕ) (statement : Statement)
    (action : System.Action) :
    Frame system (system.perform index statement action) := by
  unfold System.perform
  split
  · exact frame_poll index
  · split <;> exact frame_setStatement _ _
  · split <;> exact frame_setStatement _ _
  · exact frame_startAnswered index _ _
  · exact ((frame_access _).trans (frame_access _)).trans (frame_setStatement _ _)
  · exact (frame_access _).trans (frame_setStatement _ _)
  · exact (frame_access _).trans (frame_setStatement _ _)
  · exact (frame_access _).trans (frame_setStatement _ _)
  · exact frame_setStatement _ _
  · exact frame_setStatement _ _
  · exact frame_setStatement _ _
  · exact Frame.refl system

theorem Ordered.frame {next : System} (h : Ordered system) (hframe : Frame system next) :
    Ordered next :=
  h.keep hframe.runner hframe.dispatched (fun harmed => hframe.disarmed.trans harmed)
    fun hdropped => hframe.dropped.trans hdropped

/-! ## Steps -/

theorem ordered_sendCommit {id : Bytes} (h : system.dispatched = []) :
    Ordered (system.sendCommit id) := by
  refine ⟨?_, rfl⟩
  intro rpc hmem
  have hrpc : rpc ∈ system.dispatched ++ [.commit id] := hmem
  rw [h, List.nil_append, List.mem_singleton] at hrpc
  exact ⟨id, hrpc⟩

theorem ordered_commitFailed (h : Ordered system) : Ordered system.commitFailed :=
  h.finish rfl rfl (fun _ => rfl) id

theorem ordered_commit (h : Ordered system) (hworking : system.runner = .working) :
    Ordered system.commit := by
  have hnone : system.dispatched = [] := by
    unfold Ordered at h
    rw [hworking] at h
    exact h
  unfold System.commit
  split
  · exact ordered_commitFailed h
  · dsimp only
    split
    · exact ordered_commitFailed h
    · exact ordered_sendCommit hnone
    · exact ordered_commitFailed h
    · exact hnone

theorem ordered_beginAnswered (h : Ordered system) (hbeginning : system.runner = .beginning)
    (answer : Except Error Bytes) : Ordered (system.beginAnswered answer) := by
  have hnone : system.dispatched = [] := by
    unfold Ordered at h
    rw [hbeginning] at h
    exact h
  unfold System.beginAnswered
  split
  · refine ordered_commitFailed (h.keep rfl rfl (fun harmed => ?_) id)
    rw [access_disarmed']
    exact harmed
  · dsimp only
    split
    · exact ordered_sendCommit hnone
    · split
      · exact ordered_sendCommit hnone
      · refine ordered_commitFailed (h.keep rfl rfl (fun harmed => ?_) id)
        simpa [System.hand] using harmed

theorem ordered_commitAnswered (h : Ordered system) {id : Bytes} {retried : Bool}
    (hcommitting : system.runner = .committing id retried)
    (answer : Except Error CommitResponse) :
    Ordered (system.commitAnswered id retried answer) := by
  unfold System.commitAnswered
  split
  · exact ordered_commitFailed (h.frame (frame_access _))
  · split
    · exact h.finish rfl rfl (fun harmed => harmed) fun hdropped => hdropped
    · split
      · exact ordered_commitFailed h
      · unfold Ordered at h
        rw [hcommitting] at h
        refine ⟨?_, h.2⟩
        intro rpc hmem
        rcases List.mem_append.mp hmem with hmem | hmem
        · exact h.1 rpc hmem
        · exact ⟨id, List.mem_singleton.mp hmem⟩

theorem ordered_workFailed (h : Ordered system) (hworking : system.runner = .working) :
    Ordered system.workFailed := by
  have hnone : system.dispatched = [] := by
    unfold Ordered at h
    rw [hworking] at h
    exact h
  unfold System.workFailed
  split
  · exact h.finish rfl rfl (fun _ => rfl) fun hdropped => hdropped
  · split
    case h_1 id hid =>
      refine ⟨id, ?_, rfl⟩
      change system.dispatched ++ [.rollback id] = [.rollback id]
      rw [hnone, List.nil_append]
    case h_2 => exact h.finish rfl rfl (fun harmed => harmed) fun hdropped => hdropped

theorem ordered_cancelRun (h : Ordered system) : Ordered system.cancelRun := by
  unfold System.cancelRun
  split
  · exact h.finish rfl rfl (fun harmed => by simpa using harmed) fun hdropped => hdropped
  · exact h.finish rfl rfl (fun harmed => harmed) fun hdropped => hdropped

theorem ordered_of_ended (hended : system.runner = .ended)
    (h : system.dispatched = [] ∨ (Commits system ∧ system.transaction.disarmed = true) ∨
      ∃ id, system.dispatched = [.rollback id] ∧
        (system.transaction.disarmed = true ∨ system.dropped = true)) : Ordered system := by
  unfold Ordered
  rw [hended]
  exact h

theorem ordered_release (h : Ordered system) : Ordered system.release := by
  unfold System.release
  split
  case isTrue hgoes =>
    obtain ⟨hended, -, hfirst⟩ := hgoes
    unfold System.dropGuard
    split
    · exact h.keep rfl rfl (fun harmed => harmed) fun _ => rfl
    case h_2 id hid =>
      split
      · exact h.keep rfl rfl (fun harmed => harmed) fun _ => rfl
      case isFalse harmed =>
        have hnone : system.dispatched = [] := by
          unfold Ordered at h
          rw [hended] at h
          obtain hnone | ⟨-, hdisarmed⟩ | ⟨id, -, hdisarmed | hdropped⟩ := h
          · exact hnone
          · exact absurd hdisarmed harmed
          · exact absurd hdisarmed harmed
          · simp [hfirst] at hdropped
        refine ordered_of_ended hended (.inr (.inr ⟨id, ?_, .inr rfl⟩))
        change system.dispatched ++ [.rollback id] = [.rollback id]
        rw [hnone, List.nil_append]
  case isFalse => exact h

theorem ordered_act (h : Ordered system) (event : System.Event) : Ordered (system.act event) := by
  cases event with
  | statement =>
    unfold System.act
    dsimp only
    split
    · exact h
    · exact h.frame ⟨rfl, rfl, rfl, rfl, rfl, rfl⟩
  | perform index action =>
    unfold System.act
    dsimp only
    split
    · exact h.frame (frame_perform index _ action)
    · exact h
  | record error => exact h.frame (frame_access _)
  | workFailed =>
    unfold System.act
    dsimp only
    split
    · exact ordered_workFailed h ‹_›
    · exact h
  | commit =>
    unfold System.act
    dsimp only
    split
    · exact ordered_commit h ‹_›
    · exact h
  | beginAnswered answer =>
    unfold System.act
    dsimp only
    split
    · exact ordered_beginAnswered h ‹_› answer
    · exact h
  | commitAnswered answer =>
    unfold System.act
    dsimp only
    split
    · exact ordered_commitAnswered h ‹_› answer
    · exact h
  | rollbackAnswered =>
    unfold System.act
    dsimp only
    split
    · exact h.finish rfl rfl (fun harmed => harmed) fun hdropped => hdropped
    · exact h
  | cancelRun => exact ordered_cancelRun h
  | clone =>
    unfold System.act
    dsimp only
    split
    · exact h
    · exact h.keep rfl rfl (fun harmed => harmed) fun hdropped => hdropped
  | dropClone =>
    unfold System.act
    dsimp only
    split
    · exact h
    · exact h.keep rfl rfl (fun harmed => harmed) fun hdropped => hdropped

theorem ordered_run (h : Ordered system) (events : List System.Event) :
    Ordered (system.run events) :=
  Interleaving.foldl_invariant (motive := Ordered)
    (fun _ event h => ordered_release (ordered_act h event)) h events

/-! ## What was dispatched -/

theorem dispatched_cases (h : Ordered system) :
    Commits system ∨ ∃ id, system.dispatched = [.rollback id] := by
  have hnil : system.dispatched = [] → Commits system := by
    intro hnone rpc hmem
    rw [hnone] at hmem
    cases hmem
  unfold Ordered at h
  cases hrunner : system.runner with
  | working =>
    rw [hrunner] at h
    exact .inl (hnil h)
  | beginning =>
    rw [hrunner] at h
    exact .inl (hnil h)
  | committing id retried =>
    rw [hrunner] at h
    exact .inl h.1
  | rollingBack =>
    rw [hrunner] at h
    obtain ⟨id, hrollback, -⟩ := h
    exact .inr ⟨id, hrollback⟩
  | ended =>
    rw [hrunner] at h
    obtain hnone | ⟨hcommits, -⟩ | ⟨id, hrollback, -⟩ := h
    · exact .inl (hnil hnone)
    · exact .inl hcommits
    · exact .inr ⟨id, hrollback⟩

/-- At most one rollback is dispatched. -/
theorem countP_isRollback_le (h : Ordered system) :
    system.dispatched.countP Rpc.isRollback ≤ 1 := by
  rcases dispatched_cases h with hcommits | ⟨id, hrollback⟩
  · have hzero : system.dispatched.countP Rpc.isRollback = 0 := by
      rw [List.countP_eq_zero]
      intro rpc hmem
      obtain ⟨id, rfl⟩ := hcommits rpc hmem
      simp [Rpc.isRollback]
    omega
  · simp [hrollback, Rpc.isRollback]

/-- No rollback is dispatched after a commit. -/
theorem pairwise_not_rollback (h : Ordered system) :
    system.dispatched.Pairwise fun earlier later =>
      earlier.isRollback = false → later.isRollback = false := by
  rcases dispatched_cases h with hcommits | ⟨id, hrollback⟩
  · apply List.pairwise_of_forall_mem_list
    intro earlier _ later hlater _
    obtain ⟨id, rfl⟩ := hcommits later hlater
    rfl
  · simp [hrollback]

end GoogleCloudRust.ReadWrite.DropGuard
