import Mathlib.Data.List.Basic
import GoogleCloudRust.Verification.TransactionRunner.Attempts

/-! # The retry protocol of the runner

The attempts that a run makes, one after the other, with what lets it go on after each. -/

namespace GoogleCloudRust.ReadWrite

open LazyTransaction

variable {T : Type*} {runner next : TransactionRunner} {attempts : ℕ} {forceExplicitBegin : Bool}
  {attempted : Attempted T} {made : List (Attempted T)}
  {outcome : Option (Except Error (TransactionResult T))}

/-- The previous id after an attempt. -/
def carry (previous : Bytes) (attempted : Attempted T) : Bytes :=
  match attempted.id with
  | none => previous
  | some id => if attempted.abortedBySpanner then id else []

/-- The runner makes another attempt after this one, its attempt number `attempts`. -/
structure GoesOn (runner : TransactionRunner) (attempts : ℕ) (forceExplicitBegin : Bool)
    (attempted : Attempted T) (next : TransactionRunner) (forceNext : Bool) : Prop where
  ended : attempted.EndedInAbort runner.client
  next_eq : next =
    runner.setPreviousTransactionId (carry runner.previousTransactionId attempted)
  cause : (attempted.bypasses = true ∧ forceExplicitBegin = false ∧
      runner.explicitBegin = false ∧ forceNext = true) ∨
    (attempted.bypasses = false ∧ forceNext = forceExplicitBegin ∧
      ∃ error elapsed error', runner.retryPolicy error attempts elapsed = .continue error')

/-- The attempts and the outcome of the loop, from the runner, the number of attempts before and
`force_explicit_begin`. -/
inductive Made : TransactionRunner → ℕ → Bool → List (Attempted T) →
    Option (Except Error (TransactionResult T)) → Prop
  | waiting (runner : TransactionRunner) (attempts : ℕ) (forceExplicitBegin : Bool) :
      Made runner attempts forceExplicitBegin [] none
  | returned {runner : TransactionRunner} {attempts : ℕ} {forceExplicitBegin : Bool}
      {attempted : Attempted T} {response : TransactionResult T}
      (hprevious : attempted.previousTransactionId = runner.previousTransactionId)
      (hwork : ∃ transaction, attempted.work = some (.ok response.result, transaction))
      (hcommit : attempted.commit = some (.ok response.commitResponse))
      (hasks : attempted.bypasses = false) :
      Made runner attempts forceExplicitBegin [attempted] (some (.ok response))
  | failed {runner : TransactionRunner} {attempts : ℕ} {forceExplicitBegin : Bool}
      {attempted : Attempted T} (error : Error)
      (hprevious : attempted.previousTransactionId = runner.previousTransactionId)
      (hlazy : attempted.bypasses = true →
        forceExplicitBegin = false ∧ runner.explicitBegin = false) :
      Made runner attempts forceExplicitBegin [attempted] (some (.error error))
  | again {runner next : TransactionRunner} {attempts : ℕ} {forceExplicitBegin forceNext : Bool}
      {attempted : Attempted T} {made : List (Attempted T)}
      {outcome : Option (Except Error (TransactionResult T))}
      (hprevious : attempted.previousTransactionId = runner.previousTransactionId)
      (hgoes : GoesOn runner (attempts + 1) forceExplicitBegin attempted next forceNext)
      (hrest : Made next (attempts + 1) forceNext made outcome) :
      Made runner attempts forceExplicitBegin (attempted :: made) outcome

theorem backoffIfAborted_ok {client : DatabaseClient} {policy : TransactionRetryPolicy}
    {error : Error} {params : AbortBackoffParams}
    (h : backoffIfAborted client policy error params = .ok ()) :
    ∃ error', policy error params.attempts params.elapsed = .continue error' := by
  unfold backoffIfAborted at h
  split at h
  · cases h
  · split at h
    · cases h
    · cases h
    · exact ⟨_, ‹_›⟩

theorem goesOn_of_handleAttemptError {attempt : Attempt T} {attemptError : AttemptError}
    {forceNext : Bool}
    (hresult : (runner.attempt forceExplicitBegin attempt).result = .error attemptError)
    (h : runner.handleAttemptError attempts forceExplicitBegin attempt attemptError =
      .ok (next, forceNext)) :
    GoesOn runner attempts forceExplicitBegin (runner.attempt forceExplicitBegin attempt) next
      forceNext := by
  cases attemptError with
  | nonAborted error => cases h
  | aborted spannerError retryDelay action isFirstStatementFailed =>
    have hjudged := attempt_aborted hresult
    have hbypasses : (runner.attempt forceExplicitBegin attempt).bypasses =
        isFirstStatementFailed := by
      rw [Attempted.bypasses, hresult]
    have hrunner : runner.updatePreviousTransactionId action =
        runner.setPreviousTransactionId
          (carry runner.previousTransactionId (runner.attempt forceExplicitBegin attempt)) := by
      rw [hjudged.action_eq, Attempted.action, carry]
      cases (runner.attempt forceExplicitBegin attempt).id with
      | none => rfl
      | some id =>
        cases (runner.attempt forceExplicitBegin attempt).abortedBySpanner <;> rfl
    simp only [TransactionRunner.handleAttemptError, hrunner] at h
    split at h
    case isTrue hfirst =>
      cases h
      obtain ⟨hforce, hexplicit⟩ := hjudged.lazy hfirst
      exact ⟨hjudged.ended, rfl, .inl ⟨hbypasses.trans hfirst, hforce, hexplicit, rfl⟩⟩
    case isFalse hfirst =>
      split at h
      case h_1 hbackoff =>
        cases h
        obtain ⟨error', hcontinue⟩ := backoffIfAborted_ok hbackoff
        exact ⟨hjudged.ended, rfl,
          .inr ⟨hbypasses.trans (by simpa using hfirst), rfl, _, _, error', hcontinue⟩⟩
      case h_2 => cases h

theorem bypasses_lazy {attempt : Attempt T}
    (h : (runner.attempt forceExplicitBegin attempt).bypasses = true) :
    forceExplicitBegin = false ∧ runner.explicitBegin = false := by
  unfold Attempted.bypasses at h
  split at h
  · exact (attempt_aborted ‹_›).lazy h
  · cases h

theorem loop_made (runner : TransactionRunner) (attempts : ℕ) (forceExplicitBegin : Bool)
    (list : List (Attempt T)) :
    Made runner attempts forceExplicitBegin (runner.loop attempts forceExplicitBegin list).1
      (runner.loop attempts forceExplicitBegin list).2 := by
  induction list generalizing runner attempts forceExplicitBegin with
  | nil => exact .waiting runner attempts forceExplicitBegin
  | cons attempt rest ih =>
    have hprevious : (runner.attempt forceExplicitBegin attempt).previousTransactionId =
        runner.previousTransactionId := attempt_previousTransactionId
    rw [TransactionRunner.loop]
    split
    case h_1 response hresult =>
      obtain ⟨hwork, hcommit⟩ := attempt_ok hresult
      exact .returned hprevious hwork hcommit (by rw [Attempted.bypasses, hresult])
    case h_2 attemptError hresult =>
      split
      case h_1 error hhandled => exact .failed error hprevious bypasses_lazy
      case h_2 next forceNext hhandled =>
        exact .again hprevious (goesOn_of_handleAttemptError hresult hhandled) (ih next _ forceNext)

/-! ## What holds of the attempts made -/

theorem lt_maxAttempts {policy : BasicTransactionRetryPolicy} (hmax : 0 < policy.maxAttempts)
    {error error' : Error} {elapsed : ℕ}
    (h : policy.onAbort error attempts elapsed = .continue error') :
    attempts < policy.maxAttempts := by
  unfold BasicTransactionRetryPolicy.onAbort at h
  split at h
  · cases h
  · omega

namespace Made

theorem getLast_of_ok (h : Made runner attempts forceExplicitBegin made outcome)
    {response : TransactionResult T} (hok : outcome = some (.ok response)) :
    ∃ last ∈ made.getLast?, last.commit = some (.ok response.commitResponse) ∧
      ∃ transaction, last.work = some (.ok response.result, transaction) := by
  induction h with
  | waiting runner attempts forceExplicitBegin => cases hok
  | returned hprevious hwork hcommit hasks =>
    cases hok
    exact ⟨_, rfl, hcommit, hwork⟩
  | failed error hprevious hlazy => cases hok
  | @again runner next attempts forceExplicitBegin forceNext attempted made outcome hprevious hgoes
      hrest ih =>
    obtain ⟨last, hlast, hcommit, hwork⟩ := ih hok
    refine ⟨last, ?_, hcommit, hwork⟩
    rw [List.getLast?_cons, Option.mem_def.mp hlast]
    rfl

theorem endedInAbort (h : Made runner attempts forceExplicitBegin made outcome) :
    ∀ attempted ∈ made.dropLast, attempted.EndedInAbort runner.client := by
  induction h with
  | waiting runner attempts forceExplicitBegin => simp
  | returned hprevious hwork hcommit hasks => simp
  | failed error hprevious hlazy => simp
  | @again runner next attempts forceExplicitBegin forceNext attempted made outcome hprevious hgoes
      hrest ih =>
    intro other hmem
    cases made with
    | nil => simp at hmem
    | cons second made =>
      rw [List.dropLast_cons_cons] at hmem
      rcases List.mem_cons.mp hmem with rfl | hmem
      · exact hgoes.ended
      · have hended := ih other hmem
        rw [hgoes.next_eq] at hended
        exact hended

/-- Once the begin is explicit the retry policy is always asked. -/
theorem countP_bypasses (h : Made runner attempts forceExplicitBegin made outcome) :
    made.countP Attempted.bypasses ≤
      if forceExplicitBegin || runner.explicitBegin then 0 else 1 := by
  induction h with
  | waiting runner attempts forceExplicitBegin => simp
  | returned hprevious hwork hcommit hasks => simp [hasks]
  | @failed runner attempts forceExplicitBegin attempted error hprevious hlazy =>
    cases hbypasses : attempted.bypasses with
    | false => simp [hbypasses]
    | true => simp [hbypasses, hlazy hbypasses]
  | @again runner next attempts forceExplicitBegin forceNext attempted made outcome hprevious hgoes
      hrest ih =>
    rw [List.countP_cons]
    obtain ⟨hbypasses, hforce, hexplicit, hnext⟩ | ⟨hbypasses, hforce, -⟩ := hgoes.cause
    · rw [hnext, Bool.true_or, if_pos rfl] at ih
      simp [hbypasses, hforce, hexplicit, Nat.le_zero.mp ih]
    · rw [hgoes.next_eq, hforce] at ih
      rw [hbypasses, if_neg (by simp), Nat.add_zero]
      exact ih

theorem length_le {policy : BasicTransactionRetryPolicy}
    (hpolicy : runner.retryPolicy = policy.onAbort) (hmax : 0 < policy.maxAttempts)
    (h : Made runner attempts forceExplicitBegin made outcome)
    (hlt : (forceExplicitBegin || runner.explicitBegin) = false → attempts < policy.maxAttempts) :
    made.length ≤
      if forceExplicitBegin || runner.explicitBegin then max (policy.maxAttempts - attempts) 1
      else policy.maxAttempts - attempts + 1 := by
  induction h with
  | waiting runner attempts forceExplicitBegin => simp
  | returned hprevious hwork hcommit hasks =>
    rw [List.length_singleton]
    split <;> omega
  | failed error hprevious hlazy =>
    rw [List.length_singleton]
    split <;> omega
  | @again runner next attempts forceExplicitBegin forceNext attempted made outcome hprevious hgoes
      hrest ih =>
    rw [List.length_cons]
    obtain ⟨-, hforce, hexplicit, hnext⟩ | ⟨-, hforce, error, elapsed, error', hcontinue⟩ :=
      hgoes.cause
    · have hlength := ih (by rw [hgoes.next_eq]; exact hpolicy) (by simp [hnext])
      have hbefore := hlt (by simp [hforce, hexplicit])
      simp only [hnext, Bool.true_or, if_true] at hlength
      simp only [hforce, hexplicit, Bool.or_self, Bool.false_eq_true, if_false]
      omega
    · rw [hpolicy] at hcontinue
      have hbelow := lt_maxAttempts hmax hcontinue
      have hlength := ih (by rw [hgoes.next_eq]; exact hpolicy) fun _ => hbelow
      rw [hgoes.next_eq, hforce] at hlength
      change made.length ≤ if forceExplicitBegin || runner.explicitBegin then _ else _ at hlength
      split
      case isTrue hflag =>
        rw [if_pos hflag] at hlength
        omega
      case isFalse hflag =>
        rw [if_neg hflag] at hlength
        omega

theorem previousTransactionId_eq (h : Made runner attempts forceExplicitBegin made outcome) {k : ℕ}
    (hk : made[k]? = some attempted) :
    attempted.previousTransactionId = (made.take k).foldl carry runner.previousTransactionId := by
  induction h generalizing k with
  | waiting runner attempts forceExplicitBegin => cases hk
  | returned hprevious hwork hcommit hasks =>
    cases k with
    | zero =>
      cases hk
      exact hprevious
    | succ k => cases hk
  | failed error hprevious hlazy =>
    cases k with
    | zero =>
      cases hk
      exact hprevious
    | succ k => cases hk
  | again hprevious hgoes hrest ih =>
    cases k with
    | zero =>
      cases hk
      exact hprevious
    | succ k =>
      rw [ih hk, hgoes.next_eq]
      rfl

end Made

/-- The transaction id of the latest of the given attempts that had one, if Spanner had aborted it;
empty if it was rolled back, or if there is none. -/
def latestAborted (earlier : List (Attempted T)) : Bytes :=
  match earlier.reverse.find? fun attempted => attempted.id.isSome with
  | none => []
  | some attempted => if attempted.abortedBySpanner then attempted.id.getD [] else []

theorem foldl_carry (earlier : List (Attempted T)) :
    earlier.foldl carry [] = latestAborted earlier := by
  induction earlier using List.reverseRecOn with
  | nil => rfl
  | append_singleton earlier attempted ih =>
    rw [List.foldl_append, ih, List.foldl_cons, List.foldl_nil, carry]
    cases hid : attempted.id with
    | none => simp [latestAborted, hid]
    | some id => simp [latestAborted, hid]

/-- A run returns a result only when its last attempt has committed, with the value that the closure
returned in it. It goes on only after an attempt that ended in an abort. The retry policy is passed
over at most once, so that a limit of `n` attempts lets the closure run at most `n + 1` times. Each
attempt carries the id of the latest one before it that had one, if that one was aborted by
Spanner. -/
theorem run_follows_protocol (runner : TransactionRunner) (hnew : runner.previousTransactionId = [])
    (list : List (Attempt T)) :
    let made := (runner.run list).1
    (∀ response, (runner.run list).2 = some (.ok response) →
      ∃ last ∈ made.getLast?, last.commit = some (.ok response.commitResponse) ∧
        ∃ transaction, last.work = some (.ok response.result, transaction)) ∧
    (∀ attempted ∈ made.dropLast, attempted.EndedInAbort runner.client) ∧
    made.countP Attempted.bypasses ≤ 1 ∧
    (∀ policy : BasicTransactionRetryPolicy, runner.retryPolicy = policy.onAbort →
      1 ≤ policy.maxAttempts →
        made.countP (fun attempted => attempted.work.isSome) ≤ policy.maxAttempts + 1) ∧
    ∀ k attempted, made[k]? = some attempted →
      attempted.previousTransactionId = latestAborted (made.take k) := by
  intro made
  have hmade : Made runner 0 false made (runner.run list).2 := loop_made runner 0 false list
  refine ⟨fun response hok => hmade.getLast_of_ok hok, hmade.endedInAbort, ?_,
    fun policy hpolicy hmax => ?_, fun k attempted hk => ?_⟩
  · have hcount := hmade.countP_bypasses
    split at hcount <;> omega
  · have hlength := hmade.length_le hpolicy hmax fun _ => hmax
    have hcount := List.countP_le_length (p := fun attempted : Attempted T => attempted.work.isSome)
      (l := made)
    split at hlength <;> omega
  · rw [hmade.previousTransactionId_eq hk, hnew, foldl_carry]

/-- The first statement fails, and the closure returns the error of the second one. The next attempt
begins explicitly and commits. -/
theorem run_follows_protocol_two_attempts :
    ((TransactionRunner.mk ⟨false, fun _ => none⟩
        (BasicTransactionRetryPolicy.mk 1 0).onAbort false [] none).run
      [⟨.ok [1], [.poll 0, .setFailed (.other "invalid")],
          .error abortedDueToFailedInitialStatement, [], ⟨.ok [1], [], .ok ⟨none, false⟩, [],
            .ok ⟨none, false⟩, []⟩, [], 0, 0, 0⟩,
        ⟨.ok [2], [], .ok "done", [], ⟨.ok [1], [], .ok ⟨none, false⟩, [], .ok ⟨none, false⟩, []⟩,
          [], 0, 0, 0⟩]).1.countP (fun attempted => attempted.work.isSome) ≤ 1 + 1 :=
  (run_follows_protocol _ rfl _).2.2.2.1 (BasicTransactionRetryPolicy.mk 1 0) rfl le_rfl

end GoogleCloudRust.ReadWrite
