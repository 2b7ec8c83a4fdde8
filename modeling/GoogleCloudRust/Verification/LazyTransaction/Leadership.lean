import GoogleCloudRust.Library.Interleaving
import GoogleCloudRust.Model.LazyTransaction

/-! # One leader starts the transaction

The state leaves `Starting` only through the operation that was elected for it. What the
others may do depends on the state they have seen: an operation that no longer begins the
transaction has seen it started or failed, and those states are final. -/

namespace GoogleCloudRust.LazyTransaction

open TransactionState

variable {system next : System} {operation after : Operation} {n : ℕ}

/-- Started with an id, or failed. -/
def Terminal : TransactionState → Prop
  | .notStarted _ | .starting _ _ => False
  | .started selector _ => ∃ id, selector = .id id
  | .failed _ | .firstStatementFailed => True

/-- What an operation knows in its phase. -/
def OperationInv (state : TransactionState) (operation : Operation) : Prop :=
  match operation.phase with
  | .polling | .waiting _ | .preparing => operation.elected = none
  | .leading n | .beginning n => operation.elected = some n ∧ ∃ options, state = .starting options n
  | .dropping => ∃ n options, operation.elected = some n ∧ state = .starting options n
  | .notifying _ continuation => continuation = .execute → Terminal state
  | .executing => Terminal state
  | .finished => True

/-! ## What an operation can do -/

inductive Transition (system : System) (operation : Operation) : Operation → System → Prop
  | move (phase : Phase)
      (hinv : OperationInv system.state { operation with phase := phase })
      (hwaiting : ∀ n, phase = .waiting n → operation.phase = .waiting n ∨
        ∃ options, system.state = .starting options n)
      (hnotifying : ∀ n continuation, operation.phase = .notifying n continuation →
        phase = .notifying n continuation) :
      Transition system operation { operation with phase := phase } system
  | elect (options : TransactionOptions) (phase : Phase)
      (hstate : system.state = .notStarted options) (helected : operation.elected = none)
      (hpolling : operation.phase = .polling ∨ operation.phase = .preparing)
      (hphase : phase = .leading system.notifies ∨ phase = .beginning system.notifies) :
      Transition system operation ⟨phase, some system.notifies⟩
        { system with
          state := .starting options system.notifies
          notifies := system.notifies + 1 }
  | leave (options : TransactionOptions) (n : ℕ) (state : TransactionState)
      (continuation : Continuation) (hstate : system.state = .starting options n)
      (helected : operation.elected = some n)
      (hleft : Terminal state ∨ (state = .notStarted options ∧
        options.mode ≠ some .readWrite ∧ operation.phase = .dropping ∧
        continuation = .finish))
      (hphase : ∀ n continuation, operation.phase ≠ .notifying n continuation) :
      Transition system operation { operation with phase := .notifying n continuation }
        { system with state := state }
  | wake (n : ℕ) (continuation : Continuation)
      (hphase : operation.phase = .notifying n continuation)
      (hcontinuation : OperationInv system.state { operation with phase := continuation.phase }) :
      Transition system operation { operation with phase := continuation.phase }
        { system with operations := System.notifyWaiters system.operations n }

/-- Moving on to a phase in which nothing is expected of the state but what is given. -/
theorem Transition.move_of_state {state : TransactionState} (phase : Phase)
    (hstate : system.state = state) (hinv : OperationInv state { operation with phase := phase })
    (hwaiting : ∀ n, phase = .waiting n → ∃ options, state = .starting options n)
    (hnotifying : ∀ n continuation, operation.phase ≠ .notifying n continuation) :
    Transition system operation { operation with phase := phase }
      { system with state := state } := by
  subst hstate
  exact .move phase hinv (fun n h => .inr (hwaiting n h)) fun n continuation h =>
    absurd h (hnotifying n continuation)

theorem Transition.stay (hinv : OperationInv system.state operation) :
    Transition system operation operation system :=
  .move operation.phase hinv (fun _ h => .inl h) fun _ _ h => h

/-- Started transactions have an id. -/
def StartedWithId (state : TransactionState) : Prop :=
  ∀ selector timestamp, state = .started selector timestamp → ∃ id, selector = .id id

theorem poll_transition (hphase : operation.phase = .polling)
    (hstarted : StartedWithId system.state) (hinv : OperationInv system.state operation) :
    Transition system operation (system.poll operation).1 (system.poll operation).2 := by
  have hnotifying : ∀ n continuation, operation.phase ≠ .notifying n continuation := by
    simp [hphase]
  have helected : operation.elected = none := by simpa [OperationInv, hphase] using hinv
  unfold System.poll
  cases hstate : system.state with
  | notStarted options => exact .elect options _ hstate helected (.inl hphase) (.inl rfl)
  | starting options notify =>
      refine .move_of_state (.waiting notify) hstate helected ?_ hnotifying
      intro n h
      cases h
      exact ⟨options, rfl⟩
  | started selector timestamp =>
      obtain ⟨id, rfl⟩ := hstarted selector timestamp hstate
      exact .move_of_state .executing hstate ⟨id, rfl⟩ (by simp) hnotifying
  | failed failure => exact .move_of_state .finished hstate trivial (by simp) hnotifying
  | firstStatementFailed => exact .move_of_state .finished hstate trivial (by simp) hnotifying

theorem prepareForCommit_transition (hphase : operation.phase = .preparing)
    (hinv : OperationInv system.state operation) :
    Transition system operation (system.prepareForCommit operation).1
      (system.prepareForCommit operation).2 := by
  have hnotifying : ∀ n continuation, operation.phase ≠ .notifying n continuation := by
    simp [hphase]
  have helected : operation.elected = none := by simpa [OperationInv, hphase] using hinv
  unfold System.prepareForCommit
  cases hstate : system.state with
  | notStarted options => exact .elect options _ hstate helected (.inr hphase) (.inr rfl)
  | starting options notify =>
      exact .move_of_state .finished hstate trivial (by simp) hnotifying
  | started selector timestamp =>
      cases hid : selector.id? with
      | none =>
          simp only [TransactionState.prepareForCommit, prepareFixedForCommit, hid]
          exact .move_of_state .finished hstate trivial (by simp) hnotifying
      | some id =>
          simp only [TransactionState.prepareForCommit, prepareFixedForCommit, hid]
          exact .move_of_state .finished hstate trivial (by simp) hnotifying
  | failed failure => exact .move_of_state .finished hstate trivial (by simp) hnotifying
  | firstStatementFailed => exact .move_of_state .finished hstate trivial (by simp) hnotifying

/-- Reports of an operation that no longer begins the transaction change nothing. -/
theorem update_terminal {state : TransactionState} (h : Terminal state) (id : Bytes)
    (timestamp : Option Timestamp) : (state.update id timestamp).2 = (state, none) := by
  cases state with
  | notStarted options => cases h
  | starting options notify => cases h
  | started selector timestamp' =>
      simp only [TransactionState.update]
      split_ifs <;> rfl
  | failed failure => rfl
  | firstStatementFailed => rfl

theorem setFailed_terminal {state : TransactionState} (h : Terminal state) (error : Error)
    (isEmulator : Bool) : state.setFailed error isEmulator = (state, none) := by
  cases state with
  | notStarted options => cases h
  | starting options notify => cases h
  | started selector timestamp => rfl
  | failed failure => rfl
  | firstStatementFailed => rfl

theorem setFailed_starting (options : TransactionOptions) (n : ℕ) (error : Error)
    (isEmulator : Bool) :
    ∃ state, (TransactionState.starting options n).setFailed error isEmulator = (state, some n) ∧
      Terminal state := by
  simp only [TransactionState.setFailed]
  split_ifs
  · exact ⟨_, rfl, trivial⟩
  · exact ⟨_, rfl, trivial⟩
  · exact ⟨_, rfl, trivial⟩

/-- A leader reports the id or the failure of the transaction. -/
theorem leave_transition {options : TransactionOptions} {state : TransactionState}
    (continuation : Continuation) (hstate : system.state = .starting options n)
    (helected : operation.elected = some n) (hterminal : Terminal state)
    (hphase : ∀ n continuation, operation.phase ≠ .notifying n continuation) :
    Transition system operation { operation with phase := .notifying n continuation }
      { system with state := state } :=
  .leave options n state continuation hstate helected (.inl hterminal) hphase

theorem leading_transition (hphase : operation.phase = .leading n)
    (hinv : OperationInv system.state operation) (action : System.Action) :
    Transition system operation (system.perform operation action).1
      (system.perform operation action).2 := by
  have hnotifying : ∀ n continuation, operation.phase ≠ .notifying n continuation := by
    simp [hphase]
  obtain ⟨helected, options, hstate⟩ : operation.elected = some n ∧
      ∃ options, system.state = .starting options n := by simpa [OperationInv, hphase] using hinv
  cases action with
  | update id timestamp =>
      unfold System.perform
      rw [hphase, hstate]
      exact leave_transition .execute hstate helected ⟨id, rfl⟩ hnotifying
  | setFailed error =>
      obtain ⟨state, hfailed, hterminal⟩ := setFailed_starting options n error system.isEmulator
      unfold System.perform
      rw [hphase]
      simp only [hstate, hfailed]
      exact leave_transition .execute hstate helected hterminal hnotifying
  | cancel =>
      unfold System.perform
      rw [hphase]
      exact .move .dropping ⟨n, options, helected, hstate⟩ (by simp) (by simp [hphase])
  | returnEarly =>
      unfold System.perform
      rw [hphase]
      exact .move .finished trivial (by simp) (by simp [hphase])
  | _ =>
      unfold System.perform
      rw [hphase]
      exact .stay hinv

theorem beginning_transition (hphase : operation.phase = .beginning n)
    (hinv : OperationInv system.state operation) (action : System.Action) :
    Transition system operation (system.perform operation action).1
      (system.perform operation action).2 := by
  have hnotifying : ∀ n continuation, operation.phase ≠ .notifying n continuation := by
    simp [hphase]
  obtain ⟨helected, options, hstate⟩ : operation.elected = some n ∧
      ∃ options, system.state = .starting options n := by simpa [OperationInv, hphase] using hinv
  cases action with
  | update id timestamp =>
      unfold System.perform
      rw [hphase, hstate]
      exact leave_transition .finish hstate helected ⟨id, rfl⟩ hnotifying
  | beginFailed error =>
      unfold System.perform
      rw [hphase]
      exact leave_transition .finish hstate helected trivial hnotifying
  | cancel =>
      unfold System.perform
      rw [hphase]
      exact .move .dropping ⟨n, options, helected, hstate⟩ (by simp) (by simp [hphase])
  | _ =>
      unfold System.perform
      rw [hphase]
      exact .stay hinv

/-- The guard that a cancelled leader drops. -/
theorem dropping_transition (hphase : operation.phase = .dropping)
    (hinv : OperationInv system.state operation) (action : System.Action) :
    Transition system operation (system.perform operation action).1
      (system.perform operation action).2 := by
  have hnotifying : ∀ n continuation, operation.phase ≠ .notifying n continuation := by
    simp [hphase]
  obtain ⟨n, options, helected, hstate⟩ : ∃ n options, operation.elected = some n ∧
      system.state = .starting options n := by simpa [OperationInv, hphase] using hinv
  cases action with
  | dropGuard =>
      unfold System.perform
      rw [hphase]
      simp only [hstate, onCancelledStarting]
      split_ifs with hmode
      · exact leave_transition .finish hstate helected trivial hnotifying
      · exact .leave options n _ .finish hstate helected (.inr ⟨rfl, hmode, hphase, rfl⟩) hnotifying
  | _ =>
      unfold System.perform
      rw [hphase]
      exact .stay hinv

theorem executing_transition (hphase : operation.phase = .executing)
    (hinv : OperationInv system.state operation) (action : System.Action) :
    Transition system operation (system.perform operation action).1
      (system.perform operation action).2 := by
  have hterminal : Terminal system.state := by simpa [OperationInv, hphase] using hinv
  cases action with
  | update id timestamp =>
      have hsame := update_terminal hterminal id timestamp
      unfold System.perform
      rw [hphase]
      simp only [hsame]
      exact .move .executing hterminal (by simp) (by simp [hphase])
  | setFailed error =>
      unfold System.perform
      rw [hphase]
      simp only [setFailed_terminal hterminal]
      exact .move .executing hterminal (by simp) (by simp [hphase])
  | finish =>
      unfold System.perform
      rw [hphase]
      exact .move .finished trivial (by simp) (by simp [hphase])
  | cancel =>
      unfold System.perform
      rw [hphase]
      exact .move .finished trivial (by simp) (by simp [hphase])
  | _ =>
      unfold System.perform
      rw [hphase]
      exact .stay hinv

/-- Everything that an operation can do. -/
theorem perform_transition (hstarted : StartedWithId system.state)
    (hinv : OperationInv system.state operation) (action : System.Action) :
    Transition system operation (system.perform operation action).1
      (system.perform operation action).2 := by
  cases hphase : operation.phase with
  | polling =>
      cases action with
      | poll =>
          unfold System.perform
          rw [hphase]
          exact poll_transition hphase hstarted hinv
      | cancel =>
          unfold System.perform
          rw [hphase]
          exact .move .finished trivial (by simp) (by simp [hphase])
      | _ =>
          unfold System.perform
          rw [hphase]
          exact .stay hinv
  | waiting n =>
      cases action with
      | cancel =>
          unfold System.perform
          rw [hphase]
          exact .move .finished trivial (by simp) (by simp [hphase])
      | _ =>
          unfold System.perform
          rw [hphase]
          exact .stay hinv
  | preparing =>
      cases action with
      | prepareForCommit =>
          unfold System.perform
          rw [hphase]
          exact prepareForCommit_transition hphase hinv
      | _ =>
          unfold System.perform
          rw [hphase]
          exact .stay hinv
  | leading n => exact leading_transition hphase hinv action
  | beginning n => exact beginning_transition hphase hinv action
  | dropping => exact dropping_transition hphase hinv action
  | notifying n continuation =>
      cases action with
      | notifyWaiters =>
          unfold System.perform
          rw [hphase]
          refine .wake n continuation hphase ?_
          simp only [OperationInv, hphase] at hinv
          cases continuation with
          | execute => exact hinv rfl
          | finish => trivial
      | _ =>
          unfold System.perform
          rw [hphase]
          exact .stay hinv
  | executing => exact executing_transition hphase hinv action
  | finished =>
      cases action with
      | _ =>
          unfold System.perform
          rw [hphase]
          exact .stay hinv

/-! ## Elections -/

/-- The `Notify` that the operation at this index created as a leader. -/
def electedAt (operations : List Operation) (index : ℕ) : Option ℕ :=
  operations[index]?.bind Operation.elected

/-- Each `Notify` was created by exactly one operation. -/
structure Elections (operations : List Operation) (notifies : ℕ) : Prop where
  elected : ∀ n < notifies, ∃ index, electedAt operations index = some n
  bounded : ∀ index n, electedAt operations index = some n → n < notifies
  unique : ∀ index other n, electedAt operations index = some n →
    electedAt operations other = some n → index = other

theorem Elections.congr {operations later : List Operation} {notifies : ℕ}
    (h : Elections operations notifies)
    (hsame : ∀ index, electedAt later index = electedAt operations index) :
    Elections later notifies where
  elected := by
    intro n hn
    obtain ⟨index, hindex⟩ := h.elected n hn
    exact ⟨index, (hsame index).trans hindex⟩
  bounded := fun index n hindex => h.bounded index n ((hsame index).symm.trans hindex)
  unique := fun index other n hindex hother =>
    h.unique index other n ((hsame index).symm.trans hindex) ((hsame other).symm.trans hother)

section

variable {operations : List Operation} {index : ℕ}

theorem electedAt_set (hindex : operations[index]? = some operation) (other : ℕ) :
    electedAt (operations.set index after) other =
      if other = index then after.elected else electedAt operations other := by
  by_cases h : other = index
  · subst h
    simp [electedAt, List.getElem?_set_self', hindex]
  · rw [electedAt, List.getElem?_set_ne (Ne.symm h), if_neg h, electedAt]

/-- A step of an operation that was or was not elected leaves the elections alone. -/
theorem Elections.set {notifies : ℕ} (h : Elections operations notifies)
    (hindex : operations[index]? = some operation) (helected : after.elected = operation.elected) :
    Elections (operations.set index after) notifies := by
  refine h.congr fun other => ?_
  rw [electedAt_set hindex]
  split_ifs with heq
  · rw [helected, heq, electedAt, hindex, Option.bind_some]
  · rfl

theorem electedAt_notifyWaiters (n other : ℕ) :
    electedAt (System.notifyWaiters operations n) other = electedAt operations other := by
  simp only [electedAt, System.notifyWaiters, List.getElem?_map]
  cases operations[other]? with
  | none => rfl
  | some operation =>
      simp only [Option.map_some, Option.bind_some]
      split_ifs <;> rfl

theorem electedAt_concat (phase : Phase) (other : ℕ) :
    electedAt (operations ++ [{ phase := phase }]) other = electedAt operations other := by
  rcases Nat.lt_trichotomy other operations.length with hlt | rfl | hgt
  · rw [electedAt, List.getElem?_append_left hlt, electedAt]
  · simp [electedAt]
  · rw [electedAt, electedAt, List.getElem?_eq_none (Nat.le_of_lt hgt), List.getElem?_eq_none]
    simpa using Nat.succ_le_of_lt hgt

/-- A new leader is elected for a new `Notify`. -/
theorem Elections.elect {notifies : ℕ} (h : Elections operations notifies)
    (hindex : operations[index]? = some operation) (hnone : operation.elected = none)
    (helected : after.elected = some notifies) :
    Elections (operations.set index after) (notifies + 1) := by
  have hset := fun other => @electedAt_set _ after _ _ hindex other
  have hbefore : electedAt operations index = none := by
    rw [electedAt, hindex, Option.bind_some, hnone]
  constructor
  · intro n hn
    obtain hlt | rfl := Nat.lt_succ_iff_lt_or_eq.mp hn
    · obtain ⟨other, hother⟩ := h.elected n hlt
      refine ⟨other, ?_⟩
      rw [hset, if_neg, hother]
      rintro rfl
      rw [hbefore] at hother
      cases hother
    · exact ⟨index, by rw [hset, if_pos rfl, helected]⟩
  · intro other n hother
    rw [hset] at hother
    split_ifs at hother with heq
    · rw [helected] at hother
      cases hother
      exact Nat.lt_succ_self _
    · exact Nat.lt_succ_of_lt (h.bounded other n hother)
  · intro first second n hfirst hsecond
    rw [hset] at hfirst hsecond
    split_ifs at hfirst hsecond with heq heq' heq'
    · rw [heq, heq']
    · rw [helected] at hfirst
      cases hfirst
      exact absurd (h.bounded second notifies hsecond) (Nat.lt_irrefl _)
    · rw [helected] at hsecond
      cases hsecond
      exact absurd (h.bounded first notifies hfirst) (Nat.lt_irrefl _)
    · exact h.unique first second n hfirst hsecond

end

end GoogleCloudRust.LazyTransaction
