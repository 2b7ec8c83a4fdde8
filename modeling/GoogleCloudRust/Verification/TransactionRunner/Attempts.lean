import GoogleCloudRust.Model.TransactionRunner

/-! # What one attempt of a transaction comes to

A selector that has failed stays without an id whatever the statements in flight do, and an abort
that was recorded stays recorded. So an attempt that fails to commit with an aborted error, and has
an id, was aborted by Spanner. -/

namespace GoogleCloudRust.ReadWrite

open LazyTransaction

variable {T : Type*} {client : DatabaseClient} {transaction after : ReadWriteTransaction}
  {error : Error}

/-! ## Accesses of statements -/

/-- The transaction failed to start. -/
def Selector.Failed : Selector → Prop
  | .lazy (.failed _) | .lazy .firstStatementFailed => True
  | _ => False

/-- An id is known of a selector that was given one, and of a transaction that has started. -/
theorem Selector.getIdNoWait_eq_some_iff {selector : Selector} {id : Bytes} :
    selector.getIdNoWait = some id ↔
      selector = .fixed (.id id) ∨
        ∃ precommitToken, selector = .lazy (.started (.id id) precommitToken) := by
  constructor
  · intro hid
    cases selector with
    | fixed selector =>
      cases selector with
      | id other => cases hid; exact .inl rfl
      | _ => cases hid
    | lazy state =>
      cases state with
      | started selector precommitToken =>
        cases selector with
        | id other => cases hid; exact .inr ⟨precommitToken, rfl⟩
        | _ => cases hid
      | _ => cases hid
  · rintro (rfl | ⟨precommitToken, rfl⟩) <;> rfl

theorem Selector.Failed.getIdNoWait {selector : Selector} (h : selector.Failed) :
    selector.getIdNoWait = none := by
  rw [Option.eq_none_iff_forall_ne_some]
  intro id hid
  rcases Selector.getIdNoWait_eq_some_iff.mp hid with rfl | ⟨precommitToken, rfl⟩
  · exact h
  · exact h

@[simp] theorem recordIfAborted_selector :
    (transaction.recordIfAborted client error).selector = transaction.selector := by
  unfold ReadWriteTransaction.recordIfAborted
  split
  · rfl
  · split <;> rfl

theorem recordIfAborted_isSome (h : transaction.aborted.isSome) :
    (transaction.recordIfAborted client error).aborted.isSome := by
  rw [ReadWriteTransaction.recordIfAborted, h, Bool.true_or, if_pos rfl]
  exact h

theorem isAborted_iff : isAborted error ↔ ∃ message, error = .service ⟨.aborted, message⟩ := by
  constructor
  · intro h
    cases error with
    | service status =>
      have hcode : status.code = .aborted := of_decide_eq_true h
      exact ⟨status.message, by rw [← hcode]⟩
    | internal message => cases h
    | other text => cases h
  · rintro ⟨message, rfl⟩
    rfl

/-- An error aborts if its status says so, or if it is the one that the emulator answers instead. -/
theorem isAbortedError_iff : client.isAbortedError error ↔
    (∃ message, error = .service ⟨.aborted, message⟩) ∨
      (client.isEmulator ∧ ∃ message, error = .service ⟨.internal, message⟩ ∧
        "Schema generation".toList <:+: message.toList ∧
        "was not registered with the Action Manager".toList <:+: message.toList) := by
  rw [DatabaseClient.isAbortedError, isAbortedOrEmulatorError, Bool.or_eq_true, isAborted_iff,
    Bool.and_eq_true]
  refine or_congr_right (and_congr_right fun _ => ?_)
  constructor
  · intro h
    cases error with
    | service status =>
      rw [isInternalEmulatorError, Error.status, Option.any_some, Bool.and_eq_true,
        Bool.and_eq_true] at h
      obtain ⟨⟨hcode, hschema⟩, hmanager⟩ := h
      refine ⟨status.message, ?_, of_decide_eq_true hschema, of_decide_eq_true hmanager⟩
      rw [← of_decide_eq_true hcode]
    | internal message => cases h
    | other text => cases h
  · rintro ⟨message, rfl, hschema, hmanager⟩
    rw [isInternalEmulatorError, Error.status, Option.any_some, Bool.and_eq_true, Bool.and_eq_true]
    exact ⟨⟨decide_eq_true rfl, decide_eq_true hschema⟩, decide_eq_true hmanager⟩

theorem status_isSome (h : client.isAbortedError error) : error.status.isSome := by
  rcases isAbortedError_iff.mp h with ⟨message, rfl⟩ | ⟨-, message, rfl, -⟩
  · rfl
  · rfl

theorem not_isAbortedError_internal (message : String) :
    client.isAbortedError (.internal message) = false := by
  rw [Bool.eq_false_iff]
  intro h
  rcases isAbortedError_iff.mp h with ⟨other, hservice⟩ | ⟨-, other, hservice, -⟩
  · cases hservice
  · cases hservice

/-- An aborted error is recorded, unless another was before. -/
theorem recordIfAborted_of_isAbortedError (h : client.isAbortedError error) :
    (transaction.recordIfAborted client error).aborted.isSome := by
  unfold ReadWriteTransaction.recordIfAborted
  cases hrecorded : transaction.aborted with
  | some info => simp [hrecorded]
  | none =>
    obtain ⟨status, hstatus⟩ := Option.isSome_iff_exists.mp (status_isSome h)
    simp [h, hstatus]

theorem access_isSome (access : Access) (h : transaction.aborted.isSome) :
    (transaction.access client access).aborted.isSome := by
  cases access with
  | recordIfAborted error => exact recordIfAborted_isSome h
  | _ => exact h

theorem access_failed (access : Access) (h : transaction.selector.Failed) :
    (transaction.access client access).selector.Failed := by
  obtain ⟨selector, aborted, disarmed⟩ := transaction
  cases selector with
  | fixed selector => exact h.elim
  | lazy state =>
    cases state with
    | failed failure =>
      cases access <;> first | exact h | simpa [ReadWriteTransaction.access] using h
    | firstStatementFailed =>
      cases access <;> first | exact h | simpa [ReadWriteTransaction.access] using h
    | _ => exact h.elim

theorem access_fixed (access : Access) {selector : TransactionSelector}
    (h : transaction.selector = .fixed selector) :
    (transaction.access client access).selector = .fixed selector := by
  cases access with
  | recordIfAborted error => simpa [ReadWriteTransaction.access] using h
  | _ => simp [ReadWriteTransaction.access, ReadWriteTransaction.change, Selector.change, h]

/-- What one access keeps all of them keep. -/
theorem accesses_invariant {motive : ReadWriteTransaction → Prop}
    (hstep : ∀ transaction access, motive transaction → motive (transaction.access client access))
    (h : motive transaction) (list : List Access) : motive (transaction.accesses client list) :=
  List.foldlRecOn list _ h fun transaction htransaction access _ =>
    hstep transaction access htransaction

theorem accesses_isSome (list : List Access) (h : transaction.aborted.isSome) :
    (transaction.accesses client list).aborted.isSome :=
  accesses_invariant (motive := fun transaction => transaction.aborted.isSome)
    (fun _ access => access_isSome access) h list

theorem accesses_failed (list : List Access) (h : transaction.selector.Failed) :
    (transaction.accesses client list).selector.Failed :=
  accesses_invariant (motive := fun transaction => transaction.selector.Failed)
    (fun _ access => access_failed access) h list

theorem accesses_fixed (list : List Access) {selector : TransactionSelector}
    (h : transaction.selector = .fixed selector) :
    (transaction.accesses client list).selector = .fixed selector :=
  accesses_invariant (motive := fun transaction => transaction.selector = .fixed selector)
    (fun _ access => access_fixed access) h list

theorem accesses_lazy (list : List Access) {state : TransactionState}
    (h : transaction.selector = .lazy state) :
    ∃ state, (transaction.accesses client list).selector = .lazy state := by
  refine accesses_invariant
    (motive := fun transaction => ∃ state, transaction.selector = .lazy state) ?_ ⟨state, h⟩ list
  rintro ⟨_, aborted, disarmed⟩ access ⟨state, rfl⟩
  cases access with
  | recordIfAborted error => exact ⟨state, recordIfAborted_selector⟩
  | _ => exact ⟨_, rfl⟩

/-! ## Commits -/

/-- A commit that fails with an aborted error was aborted by Spanner, or did not start. -/
def CommitAborted (transaction : ReadWriteTransaction) : Prop :=
  transaction.aborted.isSome ∨ transaction.selector.Failed

theorem sendCommit_aborted {answers : CommitAnswers}
    (h : transaction.sendCommit client answers = (after, .error error))
    (haborted : client.isAbortedError error) : after.aborted.isSome := by
  unfold ReadWriteTransaction.sendCommit ReadWriteTransaction.commitWithPrecommitRetry at h
  dsimp only at h
  split at h
  case h_1 =>
    cases h
    exact recordIfAborted_of_isAbortedError haborted
  case h_2 =>
    split at h
    · cases h
    · split at h
      · cases h
        exact recordIfAborted_of_isAbortedError haborted
      · split at h
        · cases h
          rw [not_isAbortedError_internal] at haborted
          cases haborted
        · cases h

theorem update_error {state : TransactionState} {id : Bytes} {timestamp : Option Timestamp}
    (h : (state.update id timestamp).1 = .error error) :
    error = .internal "got a transaction id for an already Started or Failed transaction" := by
  cases state with
  | started selector read =>
    simp only [TransactionState.update] at h
    split at h
    · cases h
    · cases h
      rfl
  | notStarted options => cases h
  | starting options notify => cases h
  | failed failure =>
    cases h
    rfl
  | firstStatementFailed =>
    cases h
    rfl

theorem beginExplicitlyForCommit_aborted {answers : CommitAnswers} {state : TransactionState}
    (hlazy : transaction.selector = .lazy state)
    (h : transaction.beginExplicitlyForCommit client answers = (after, .error error))
    (haborted : client.isAbortedError error) : after.selector.Failed := by
  obtain ⟨state', hlazy'⟩ :
      ∃ state, (transaction.accesses client answers.duringBegin).selector = .lazy state :=
    accesses_lazy answers.duringBegin hlazy
  unfold ReadWriteTransaction.beginExplicitlyForCommit at h
  dsimp only at h
  split at h
  case h_1 =>
    cases h
    rw [recordIfAborted_selector, ReadWriteTransaction.change, hlazy']
    trivial
  case h_2 =>
    rw [hlazy'] at h
    dsimp only at h
    split at h
    · cases h
    case h_2 hupdate =>
      cases h
      rw [update_error hupdate, not_isAbortedError_internal] at haborted
      cases haborted

theorem prepareForCommit_aborted {selector next : Selector} {notify : ℕ}
    (h : selector.prepareForCommit notify = (.error error, next))
    (haborted : client.isAbortedError error) : next.Failed := by
  have hfixed : ∀ selector : TransactionSelector,
      TransactionState.prepareFixedForCommit selector ≠ .error error := by
    intro selector heq
    unfold TransactionState.prepareFixedForCommit at heq
    split at heq
    · cases heq
    · cases heq
      rw [not_isAbortedError_internal] at haborted
      cases haborted
  cases selector with
  | fixed selector => exact absurd (congrArg Prod.fst h) (hfixed selector)
  | lazy state =>
    cases state with
    | started selector timestamp => exact absurd (congrArg Prod.fst h) (hfixed selector)
    | starting options notify => cases h
    | notStarted options => cases h
    | failed failure =>
      cases h
      trivial
    | firstStatementFailed =>
      cases h
      trivial

theorem prepareForCommit_begin {selector next : Selector} {notify n : ℕ}
    {options : TransactionOptions}
    (h : selector.prepareForCommit notify = (.ok (.begin options n), next)) :
    ∃ state, next = .lazy state := by
  cases selector with
  | fixed selector =>
    have heq := congrArg Prod.fst h
    simp only [Selector.prepareForCommit, TransactionState.prepareFixedForCommit] at heq
    split at heq <;> cases heq
  | lazy state => exact ⟨_, (congrArg Prod.snd h).symm⟩

theorem commit_aborted {notify : ℕ} {answers : CommitAnswers}
    (h : transaction.commit client notify answers = (after, .error error))
    (haborted : client.isAbortedError error) : CommitAborted after := by
  unfold ReadWriteTransaction.commit at h
  split at h
  case h_1 info hrecorded =>
    cases h
    exact .inl (by rw [hrecorded]; rfl)
  case h_2 hrecorded =>
    dsimp only at h
    cases hprepare : transaction.selector.prepareForCommit notify with
    | mk action selector =>
    rw [hprepare] at h
    cases action with
    | error e =>
      cases h
      exact .inr (prepareForCommit_aborted hprepare haborted)
    | ok action =>
      cases action with
      | ready id => exact .inl (sendCommit_aborted h haborted)
      | starting =>
        cases h
        rw [not_isAbortedError_internal] at haborted
        cases haborted
      | begin options n =>
        obtain ⟨state, hlazy⟩ := prepareForCommit_begin hprepare
        dsimp only at h
        split at h
        case h_1 hbegin =>
          cases h
          exact .inr (beginExplicitlyForCommit_aborted hlazy hbegin haborted)
        case h_2 hbegin => exact .inl (sendCommit_aborted h haborted)

/-! ## Transactions that were begun explicitly -/

section Fixed

variable {selector : TransactionSelector}

theorem sendCommit_fixed (answers : CommitAnswers) (h : transaction.selector = .fixed selector) :
    (transaction.sendCommit client answers).1.selector = .fixed selector := by
  have hfirst : (transaction.disarmRollback.accesses client answers.duringFirst).selector =
      .fixed selector := accesses_fixed answers.duringFirst h
  have hsecond : ((transaction.disarmRollback.accesses client answers.duringFirst).accesses client
      answers.duringSecond).selector = .fixed selector :=
    accesses_fixed answers.duringSecond hfirst
  unfold ReadWriteTransaction.sendCommit ReadWriteTransaction.commitWithPrecommitRetry
  dsimp only
  split
  · rw [recordIfAborted_selector]
    exact hfirst
  · split
    · exact hfirst
    · split
      · rw [recordIfAborted_selector]
        exact hsecond
      · split
        · exact hsecond
        · exact hsecond

theorem commit_fixed (notify : ℕ) (answers : CommitAnswers)
    (h : transaction.selector = .fixed selector) :
    (transaction.commit client notify answers).1.selector = .fixed selector := by
  unfold ReadWriteTransaction.commit
  split
  · exact h
  · rw [h]
    dsimp only [Selector.prepareForCommit]
    cases hprepare : TransactionState.prepareFixedForCommit selector with
    | error e => rfl
    | ok action =>
      cases action with
      | ready id => exact sendCommit_fixed answers rfl
      | starting => rfl
      | begin options n =>
        unfold TransactionState.prepareFixedForCommit at hprepare
        split at hprepare <;> cases hprepare

theorem rollback_selector : transaction.rollback.selector = transaction.selector := by
  unfold ReadWriteTransaction.rollback
  split <;> rfl

theorem handleWorkError_fixed (runner : TransactionRunner) (attempt : Attempt T)
    (h : transaction.selector = .fixed selector) :
    (runner.handleWorkError transaction attempt error).1.selector = .fixed selector := by
  unfold TransactionRunner.handleWorkError
  split
  · exact accesses_fixed attempt.afterFailure h
  · dsimp only
    have hrolledBack : (transaction.rollback.accesses runner.client
        attempt.duringRollback).selector = .fixed selector :=
      accesses_fixed attempt.duringRollback (rollback_selector.trans h)
    split
    · exact hrolledBack
    · exact hrolledBack

end Fixed

/-! ## Attempts -/

namespace Attempted

/-- The id of the transaction when the attempt was judged. -/
def id (attempted : Attempted T) : Option Bytes :=
  attempted.transaction.bind fun transaction => transaction.selector.getIdNoWait

/-- Spanner has reported an abort: before the closure failed, or else by the end. -/
def abortedBySpanner (attempted : Attempted T) : Bool :=
  match attempted.work with
  | some (.error _, transaction) => transaction.aborted.isSome
  | _ => attempted.transaction.any fun transaction => transaction.aborted.isSome

/-- The runner goes on without asking the retry policy. -/
def bypasses (attempted : Attempted T) : Bool :=
  match attempted.result with
  | .error (.aborted _ _ _ isFirstStatementFailed) => isFirstStatementFailed
  | _ => false

/-- The attempt ended in an abort: of its begin, reported to a statement, returned by the closure, or
of its commit. It was not committed, and the commit did not fail in another way. If it had an id and
was not aborted by Spanner, the closure had failed and the runner rolled it back. -/
structure EndedInAbort (client : DatabaseClient) (attempted : Attempted T) : Prop where
  cause : (∃ error, attempted.beginError = some error ∧ client.isAbortedError error) ∨
    (∃ error transaction, attempted.work = some (.error error, transaction) ∧
      (transaction.aborted.isSome ∨ client.isAbortedError error)) ∨
    ∃ error, attempted.commit = some (.error error) ∧ client.isAbortedError error
  not_committed : ∀ response, attempted.commit ≠ some (.ok response)
  commit_aborted : ∀ error, attempted.commit = some (.error error) → client.isAbortedError error
  rolledBack : attempted.id ≠ none → attempted.abortedBySpanner = false →
    ∃ error transaction, attempted.work = some (.error error, transaction) ∧
      transaction.aborted = none

/-- What the next attempt carries. -/
def action (attempted : Attempted T) : PreviousTransactionIdAction :=
  match attempted.id with
  | none => .keep
  | some id => if attempted.abortedBySpanner then .set id else .clear

end Attempted

/-- What an attempt that is judged as aborted has come to. -/
structure JudgedAborted (runner : TransactionRunner) (forceExplicitBegin : Bool)
    (attempted : Attempted T) (action : PreviousTransactionIdAction)
    (isFirstStatementFailed : Bool) : Prop where
  ended : attempted.EndedInAbort runner.client
  action_eq : action = attempted.action
  lazy : isFirstStatementFailed = true → forceExplicitBegin = false ∧ runner.explicitBegin = false

variable {runner : TransactionRunner} {forceExplicitBegin : Bool}

theorem build_fixed {begin : Except Error Bytes}
    (h : runner.build forceExplicitBegin begin = .ok transaction)
    (hexplicit : (forceExplicitBegin || runner.explicitBegin) = true) :
    ∃ selector, transaction.selector = .fixed selector := by
  unfold TransactionRunner.build at h
  rw [if_pos hexplicit] at h
  split at h
  · cases h
  · cases h
    exact ⟨_, rfl⟩

theorem not_explicit_of_firstStatementFailed {selector : Selector}
    (hfixed : (forceExplicitBegin || runner.explicitBegin) = true → ∃ id, selector = .fixed id)
    (h : selector.isFirstStatementFailed = true) :
    forceExplicitBegin = false ∧ runner.explicitBegin = false := by
  have hlazy : ¬(forceExplicitBegin || runner.explicitBegin) = true := by
    intro hexplicit
    obtain ⟨id, rfl⟩ := hfixed hexplicit
    cases h
  simpa using hlazy

theorem buildAbortedAttemptError_eq {selector : Selector} {spannerError e : Error}
    {retryDelay d : Option ℕ} {inheritance : TransactionIdInheritance}
    {action : PreviousTransactionIdAction} {isFirstStatementFailed : Bool}
    (h : TransactionRunner.buildAbortedAttemptError selector spannerError retryDelay inheritance =
      .aborted e d action isFirstStatementFailed) :
    isFirstStatementFailed = selector.isFirstStatementFailed ∧
      action = match selector.getIdNoWait with
        | none => .keep
        | some id => if inheritance = .inherit then .set id else .clear := by
  unfold TransactionRunner.buildAbortedAttemptError at h
  cases h
  refine ⟨rfl, ?_⟩
  cases selector.getIdNoWait <;> cases inheritance <;> rfl

section Judged

variable {attempt : Attempt T} {e : Error} {d : Option ℕ} {action : PreviousTransactionIdAction}
  {isFirstStatementFailed : Bool} {previous : Bytes}

theorem judged_begin
    (h : runner.handleExplicitBeginError error = .aborted e d action isFirstStatementFailed)
    (result : Except AttemptError (TransactionResult T)) :
    JudgedAborted runner forceExplicitBegin
      ⟨previous, some error, none, none, none, result⟩ action isFirstStatementFailed := by
  unfold TransactionRunner.handleExplicitBeginError at h
  split at h
  · cases h
  case isFalse haborted =>
    cases h
    exact ⟨⟨.inl ⟨error, rfl, by simpa using haborted⟩, nofun, nofun, fun hid => absurd rfl hid⟩,
      rfl, nofun⟩

theorem judged_work
    (hfixed : (forceExplicitBegin || runner.explicitBegin) = true →
      ∃ selector, transaction.selector = .fixed selector)
    (h : runner.handleWorkError transaction attempt error =
      (after, .aborted e d action isFirstStatementFailed))
    (result : Except AttemptError (TransactionResult T)) :
    JudgedAborted runner forceExplicitBegin
      ⟨previous, none, some (.error error, transaction), none, some after, result⟩
      action isFirstStatementFailed := by
  have hfixed' : (forceExplicitBegin || runner.explicitBegin) = true →
      ∃ selector, after.selector = .fixed selector := by
    intro hexplicit
    obtain ⟨selector, hselector⟩ := hfixed hexplicit
    have hkept : (runner.handleWorkError transaction attempt error).1.selector = .fixed selector :=
      handleWorkError_fixed runner attempt hselector
    rw [h] at hkept
    exact ⟨selector, hkept⟩
  unfold TransactionRunner.handleWorkError at h
  cases hrecorded : transaction.aborted with
  | some info =>
    rw [hrecorded] at h
    obtain ⟨rfl, hbuilt⟩ := Prod.mk.inj h
    obtain ⟨hfirst, haction⟩ := buildAbortedAttemptError_eq hbuilt
    refine ⟨⟨.inr (.inl ⟨error, transaction, rfl, .inl (by simp [hrecorded])⟩), nofun, nofun,
      fun _ hnot => ?_⟩, ?_, fun hfailed => ?_⟩
    · simp [Attempted.abortedBySpanner, hrecorded] at hnot
    · simp [haction, Attempted.action, Attempted.id, Attempted.abortedBySpanner, hrecorded]
    · exact not_explicit_of_firstStatementFailed hfixed' (hfirst.symm.trans hfailed)
  | none =>
    rw [hrecorded] at h
    dsimp only at h
    split at h
    case isTrue haborted =>
      obtain ⟨rfl, hbuilt⟩ := Prod.mk.inj h
      obtain ⟨hfirst, haction⟩ := buildAbortedAttemptError_eq hbuilt
      refine ⟨⟨.inr (.inl ⟨error, transaction, rfl, .inr haborted⟩), nofun, nofun,
        fun _ _ => ⟨error, transaction, rfl, hrecorded⟩⟩, ?_, fun hfailed => ?_⟩
      · simp [haction, Attempted.action, Attempted.id, Attempted.abortedBySpanner, hrecorded]
      · exact not_explicit_of_firstStatementFailed hfixed' (hfirst.symm.trans hfailed)
    case isFalse => cases h

theorem judged_commit {value : T} {begun : ReadWriteTransaction}
    (hfixed : (forceExplicitBegin || runner.explicitBegin) = true →
      ∃ selector, after.selector = .fixed selector)
    (hcommit : runner.client.isAbortedError error → CommitAborted after)
    (h : runner.handleCommitError after error = .aborted e d action isFirstStatementFailed)
    (result : Except AttemptError (TransactionResult T)) :
    JudgedAborted runner forceExplicitBegin
      ⟨previous, none, some (.ok value, begun), some (.error error), some after, result⟩
      action isFirstStatementFailed := by
  unfold TransactionRunner.handleCommitError at h
  split at h
  · cases h
  case isFalse hnot =>
    have haborted : runner.client.isAbortedError error := by simpa using hnot
    obtain ⟨hfirst, haction⟩ := buildAbortedAttemptError_eq h
    refine ⟨⟨.inr (.inr ⟨error, rfl, haborted⟩), nofun, ?_, fun hid hnot => ?_⟩, ?_,
      fun hfailed => ?_⟩
    · rintro _ ⟨⟩
      exact haborted
    · rcases hcommit haborted with hrecorded | hfailed
      · simp [Attempted.abortedBySpanner] at hnot
        simp [hnot] at hrecorded
      · exact absurd hfailed.getIdNoWait hid
    · rw [haction]
      simp only [Attempted.action, Attempted.id, Attempted.abortedBySpanner, Option.bind_some,
        Option.any_some]
      rcases hcommit haborted with hrecorded | hfailed
      · simp [hrecorded]
      · simp [hfailed.getIdNoWait]
    · exact not_explicit_of_firstStatementFailed hfixed (hfirst.symm.trans hfailed)

theorem attempt_aborted
    (h : (runner.attempt forceExplicitBegin attempt).result =
      .error (.aborted e d action isFirstStatementFailed)) :
    JudgedAborted runner forceExplicitBegin (runner.attempt forceExplicitBegin attempt) action
      isFirstStatementFailed := by
  unfold TransactionRunner.attempt at h ⊢
  cases hbuild : runner.build forceExplicitBegin attempt.begin with
  | error error =>
    rw [hbuild] at h
    exact judged_begin (Except.error.inj h) _
  | ok built =>
    rw [hbuild] at h
    have hfixed : (forceExplicitBegin || runner.explicitBegin) = true →
        ∃ selector, (built.accesses runner.client attempt.accesses).selector = .fixed selector := by
      intro hexplicit
      obtain ⟨selector, hselector⟩ := build_fixed hbuild hexplicit
      exact ⟨selector, accesses_fixed attempt.accesses hselector⟩
    dsimp only at h ⊢
    cases hwork : attempt.work with
    | error error =>
      rw [hwork] at h
      dsimp only at h ⊢
      cases hhandled : runner.handleWorkError (built.accesses runner.client attempt.accesses)
        attempt error with
      | mk transaction attemptError =>
      rw [hhandled] at h
      cases Except.error.inj h
      exact judged_work hfixed hhandled _
    | ok value =>
      rw [hwork] at h
      dsimp only at h ⊢
      cases hcommitted : (built.accesses runner.client attempt.accesses).commit runner.client 0
        attempt.commit with
      | mk committed answer =>
      rw [hcommitted] at h
      cases answer with
      | ok response => cases h
      | error error =>
        refine judged_commit (fun hexplicit => ?_) (fun haborted => ?_) (Except.error.inj h) _
        · obtain ⟨selector, hselector⟩ := hfixed hexplicit
          have hkept : ((built.accesses runner.client attempt.accesses).commit runner.client 0
              attempt.commit).1.selector = .fixed selector :=
            commit_fixed 0 attempt.commit hselector
          rw [hcommitted] at hkept
          exact ⟨selector, accesses_fixed attempt.afterFailure hkept⟩
        · exact (commit_aborted hcommitted haborted).imp (accesses_isSome attempt.afterFailure)
            (accesses_failed attempt.afterFailure)

theorem attempt_ok {response : TransactionResult T}
    (h : (runner.attempt forceExplicitBegin attempt).result = .ok response) :
    (∃ transaction,
      (runner.attempt forceExplicitBegin attempt).work = some (.ok response.result, transaction)) ∧
    (runner.attempt forceExplicitBegin attempt).commit = some (.ok response.commitResponse) := by
  unfold TransactionRunner.attempt at h ⊢
  cases hbuild : runner.build forceExplicitBegin attempt.begin with
  | error error =>
    rw [hbuild] at h
    cases h
  | ok built =>
    rw [hbuild] at h
    dsimp only at h ⊢
    cases hwork : attempt.work with
    | error error =>
      rw [hwork] at h
      cases h
    | ok value =>
      rw [hwork] at h
      dsimp only at h ⊢
      cases hcommitted : (built.accesses runner.client attempt.accesses).commit runner.client 0
        attempt.commit with
      | mk committed answer =>
      rw [hcommitted] at h
      cases answer with
      | error error => cases h
      | ok commitResponse =>
        cases h
        exact ⟨⟨_, rfl⟩, rfl⟩

theorem attempt_previousTransactionId :
    (runner.attempt forceExplicitBegin attempt).previousTransactionId =
      runner.previousTransactionId := by
  unfold TransactionRunner.attempt
  dsimp only
  split
  · rfl
  · split
    · rfl
    · split <;> rfl

end Judged

end GoogleCloudRust.ReadWrite
