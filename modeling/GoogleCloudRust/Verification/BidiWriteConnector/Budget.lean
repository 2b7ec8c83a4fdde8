import GoogleCloudRust.Model.BidiWriteConnector

/-! # Reconnects without progress

Each reconnect that goes on takes one from the attempts that the policy allows or from the
redirects, and only new bytes give them back. -/

namespace GoogleCloudRust.BidiWriteConnector

open Gax (RetryPolicy RetryResult RetryState)

variable {crc32c : Bytes → UInt32} {enc : String → String} {options : Options}
  {connector next : Connector} {inner : RetryPolicy} {limit : ℕ}

namespace Connector

def attempts (self : Connector) : ℕ := (self.retryState.map RetryState.attemptCount).getD 0

def redirects (self : Connector) : ℕ := self.retryRedirect.getD 0

/-- What is left for reconnects when the policy allows so many attempts. -/
def budget (self : Connector) (limit : ℕ) : ℕ :=
  (limit - 1 - self.attempts) + (maxRedirectsFollowed - self.redirects)

/-- The reconnects of a run that go on to connect. -/
def reconnects (crc32c : Bytes → UInt32) (enc : String → String) (options : Options) :
    Connector → List Event → ℕ
  | _, [] => 0
  | self, event :: events =>
      let next := self.step crc32c enc options event
      (if self.phase = .connected ∧ next.phase = .reconnecting 0 then 1 else 0) +
        reconnects crc32c enc options next events

end Connector

/-! ## One step -/

theorem withAttemptLimit_continue {state : RetryState} {now : ℕ} {error e : Gax.Error}
    (h : (inner.withAttemptLimit limit).onError state now error = .continue e) :
    state.attemptCount < limit := by
  unfold RetryPolicy.withAttemptLimit at h
  dsimp only at h
  split at h
  · cases h
  · cases h
  · split_ifs at h with hlimit
    exact Nat.lt_of_not_ge hlimit

theorem onError_of_not_redirect {redirects now : ℕ} {state : RetryState} {failure : Failure}
    (h : isRedirect failure = false) :
    RetryRedirect.onError inner redirects state now failure =
      (inner.onError state now failure.error, redirects) := by
  simp [RetryRedirect.onError, h]

theorem le_onError (inner : RetryPolicy) (redirects now : ℕ) (state : RetryState) (failure : Failure) :
    redirects ≤ (RetryRedirect.onError inner redirects state now failure).2 := by
  unfold RetryRedirect.onError
  dsimp only
  split_ifs
  · exact le_rfl
  · split <;> exact Nat.le_succ _
  · split <;> exact Nat.le_succ _

/-- A redirect that is followed was one of the first. -/
theorem onError_redirect {redirects followed now : ℕ} {state : RetryState} {failure : Failure}
    {e : Gax.Error} (hredirect : isRedirect failure = true)
    (h : RetryRedirect.onError inner redirects state now failure = (.continue e, followed)) :
    redirects < maxRedirectsFollowed ∧ followed = redirects + 1 := by
  unfold RetryRedirect.onError at h
  simp only [hredirect, Bool.not_true, Bool.false_eq_true, if_false] at h
  split_ifs at h with hlt
  · split at h <;> exact ⟨hlt, (congrArg Prod.snd h).symm⟩
  · split at h <;> cases h

/-- Either there are new bytes, or the budget has paid the cost. -/
def Pays (limit cost : ℕ) (connector next : Connector) : Prop :=
  connector.lastPersistedSize < next.lastPersistedSize ∨
    (next.lastPersistedSize = connector.lastPersistedSize ∧
      cost + next.budget limit ≤ connector.budget limit)

theorem recordProgress_cases (connector : Connector) (persisted : ℤ) :
    (connector.lastPersistedSize < (connector.recordProgress persisted).lastPersistedSize) ∨
      connector.recordProgress persisted = connector := by
  unfold Connector.recordProgress
  split_ifs with h
  · exact .inl h
  · exact .inr rfl

theorem handleRedirect_budgets (connector : Connector) (failure : Failure) :
    (connector.handleRedirect failure).lastPersistedSize = connector.lastPersistedSize ∧
      (connector.handleRedirect failure).retryState = connector.retryState ∧
      (connector.handleRedirect failure).retryRedirect = connector.retryRedirect ∧
      (connector.handleRedirect failure).phase = connector.phase := by
  unfold Connector.handleRedirect
  cases failure.redirect <;> exact ⟨rfl, rfl, rfl, rfl⟩

theorem budget_eq (hstate : next.retryState = connector.retryState)
    (hredirect : next.retryRedirect = connector.retryRedirect) :
    next.budget limit = connector.budget limit := by
  rw [Connector.budget, Connector.budget, Connector.attempts, Connector.attempts,
    Connector.redirects, Connector.redirects, hstate, hredirect]

theorem pays_of_eq (hsize : next.lastPersistedSize = connector.lastPersistedSize)
    (hstate : next.retryState = connector.retryState)
    (hredirect : next.retryRedirect = connector.retryRedirect) : Pays limit 0 connector next :=
  .inr ⟨hsize, by rw [budget_eq hstate hredirect, Nat.zero_add]⟩

theorem pays_attemptFailed {attempts : ℕ} (hphase : connector.phase = .reconnecting attempts)
    (loopStart now : ℕ) (failure : Failure) :
    Pays limit 0 connector (connector.attemptFailed options loopStart now failure) := by
  have hle := le_onError options.retryPolicy connector.redirects now
    { idempotent := true, start := loopStart, attemptCount := attempts + 1 } failure
  unfold Connector.attemptFailed
  simp only [hphase]
  split <;>
  · refine .inr ⟨rfl, ?_⟩
    simp only [Connector.budget, Connector.attempts, Connector.redirects, Option.getD_some] at hle ⊢
    omega

theorem pays_attemptSucceeded {attempts : ℕ} (hphase : connector.phase = .reconnecting attempts)
    (initial : BidiWriteObjectResponse) :
    Pays limit 0 connector (connector.attemptSucceeded initial) := by
  unfold Connector.attemptSucceeded
  simp only [hphase]
  cases initial.persistedSize with
  | none => exact pays_of_eq rfl rfl rfl
  | some initialPersisted =>
      rcases recordProgress_cases { connector with phase := .connected }
        initialPersisted with hlt | heq
      · exact .inl hlt
      · dsimp only
        rw [heq]
        exact pays_of_eq rfl rfl rfl

theorem Pays.of_budgets {cost : ℕ} {between : Connector} (h : Pays limit cost between next)
    (hsize : between.lastPersistedSize = connector.lastPersistedSize)
    (hstate : between.retryState = connector.retryState)
    (hredirect : between.retryRedirect = connector.retryRedirect) :
    Pays limit cost connector next := by
  rw [Pays, ← hsize, ← budget_eq hstate hredirect]
  exact h

theorem pays_connectAttempt {attempts : ℕ} (hphase : connector.phase = .reconnecting attempts)
    (loopStart now : ℕ) (outcome : Outcome) :
    Pays limit 0 connector (connector.connectAttempt crc32c enc options loopStart now outcome) := by
  unfold Connector.connectAttempt
  cases prepareRequest crc32c enc connector.spec connector.params with
  | error error => exact pays_attemptFailed hphase loopStart now _
  | ok prepared =>
      cases outcome with
      | response initial =>
          have hphase' : (Connector.handleResponse { connector with
              log := connector.log ++ [Entry.request prepared.1 prepared.2] } initial).phase =
                .reconnecting attempts := hphase
          exact (pays_attemptSucceeded hphase' initial).of_budgets rfl rfl rfl
      | failure failure =>
          obtain ⟨hsize, hstate, hredirect, hphase'⟩ := handleRedirect_budgets
            { connector with log := connector.log ++ [Entry.request prepared.1 prepared.2] } failure
          exact (pays_attemptFailed (hphase'.trans hphase) loopStart now failure).of_budgets hsize
            hstate hredirect

/-- A reconnect that goes on costs one attempt or one redirect. -/
theorem pays_reconnect (hoptions : options.retryPolicy = inner.withAttemptLimit limit) (now : ℕ)
    (lastError : Failure) (persisted : ℤ) :
    Pays limit
      (if (connector.reconnect options now lastError persisted).phase = .reconnecting 0 then 1
        else 0) connector (connector.reconnect options now lastError persisted) := by
  obtain ⟨hsize, hstate, hredirect, -⟩ := handleRedirect_budgets connector lastError
  have hprogress := recordProgress_cases (connector.handleRedirect lastError) persisted
  unfold Connector.reconnect
  generalize hself : (connector.handleRedirect lastError).recordProgress persisted = self
    at hprogress
  have hpays : ∀ (cost : ℕ) (next : Connector),
      next.lastPersistedSize = self.lastPersistedSize →
      cost + next.budget limit ≤ self.budget limit → Pays limit cost connector next := by
    intro cost next hnext hcost
    rcases hprogress with hlt | rfl
    · exact .inl (by rw [hnext, ← hsize]; exact hlt)
    · exact Pays.of_budgets (.inr ⟨hnext, hcost⟩) hsize hstate hredirect
  dsimp only
  cases hredirected : isRedirect lastError with
  | true =>
      simp only [if_true]
      generalize honError : RetryRedirect.onError options.retryPolicy (self.retryRedirect.getD 0)
        { idempotent := true, start := now } now lastError = result
      have hle := le_onError options.retryPolicy (self.retryRedirect.getD 0) now
        { idempotent := true, start := now } lastError
      rw [honError] at hle
      obtain ⟨flow, followed⟩ := result
      cases flow with
      | «continue» e =>
          obtain ⟨hlt, rfl⟩ := onError_redirect hredirected honError
          refine hpays _ _ rfl ?_
          simp only [Connector.budget, Connector.attempts, Connector.redirects, Option.getD_some,
            if_true]
          omega
      | permanent e | exhausted e =>
          refine hpays _ _ rfl ?_
          simp only [Connector.budget, Connector.attempts, Connector.redirects, Option.getD_some,
            reduceCtorEq, if_false]
          dsimp only at hle
          omega
  | false =>
      simp only [Bool.false_eq_true, if_false, onError_of_not_redirect hredirected]
      generalize hstate' : self.retryState.getD { idempotent := true, start := now } = state
      have hattempts : (self.retryState.map RetryState.attemptCount).getD 0 = state.attemptCount := by
        rw [← hstate']
        cases self.retryState <;> rfl
      have hspent : ∀ phase, Connector.budget { self with
          retryState := some { state with attemptCount := state.attemptCount + 1 }
          retryRedirect := some (self.retryRedirect.getD 0)
          phase } limit ≤ self.budget limit := by
        intro phase
        simp only [Connector.budget, Connector.attempts, hattempts, Connector.redirects,
          Option.map_some, Option.getD_some]
        omega
      split
      · next e hflow =>
        rw [hoptions] at hflow
        have hlt := withAttemptLimit_continue hflow
        split_ifs with hremaining hphase
        · cases hphase
        · exact hpays _ _ rfl (by rw [Nat.zero_add]; exact hspent _)
        · refine hpays _ _ rfl ?_
          simp only [Connector.budget, Connector.attempts, hattempts, Connector.redirects,
            Option.map_some, Option.getD_some] at hlt ⊢
          omega
        · next hne => exact absurd rfl hne
      all_goals
        refine hpays _ _ rfl ?_
        simp only [reduceCtorEq, if_false, Nat.zero_add]
        exact hspent _

/-! ## Runs without progress -/

/-- The stream was opened once. -/
def Established (connector : Connector) : Prop :=
  connector.phase ≠ .idle ∧ ∀ attempts redirects, connector.phase ≠ .opening attempts redirects

theorem pays_step (crc32c : Bytes → UInt32) (enc : String → String)
    (hoptions : options.retryPolicy = inner.withAttemptLimit limit) (h : Established connector)
    (event : Event) :
    Pays limit
      (if connector.phase = .connected ∧
        (connector.step crc32c enc options event).phase = .reconnecting 0 then 1 else 0)
      connector (connector.step crc32c enc options event) := by
  unfold Connector.step
  split
  · next hphase => exact absurd hphase h.1
  · next hphase => exact absurd hphase h.1
  · next hphase => exact absurd hphase (h.2 _ _)
  · next hphase =>
    simp only [hphase, reduceCtorEq, false_and, if_false]
    exact pays_connectAttempt hphase _ _ _
  · next hphase => exact absurd hphase (h.2 _ _)
  · next hphase =>
    simp only [hphase, reduceCtorEq, false_and, if_false]
    exact pays_of_eq rfl rfl rfl
  · next hphase =>
    simp only [Connector.handleResponse, hphase, reduceCtorEq, and_false, if_false]
    exact pays_of_eq rfl rfl rfl
  · next hphase =>
    simp only [hphase, true_and]
    exact pays_reconnect hoptions _ _ _
  · rw [if_neg]
    · exact pays_of_eq rfl rfl rfl
    · rintro ⟨hconnected, hreconnecting⟩
      rw [hconnected] at hreconnecting
      cases hreconnecting

theorem established_attemptFailed {attempts : ℕ} (hphase : connector.phase = .reconnecting attempts)
    (loopStart now : ℕ) (failure : Failure) :
    Established (connector.attemptFailed options loopStart now failure) := by
  unfold Connector.attemptFailed
  simp only [hphase]
  split <;> exact ⟨by simp, by simp⟩

theorem established_attemptSucceeded {attempts : ℕ}
    (hphase : connector.phase = .reconnecting attempts) (initial : BidiWriteObjectResponse) :
    Established (connector.attemptSucceeded initial) := by
  unfold Connector.attemptSucceeded Connector.recordProgress
  simp only [hphase]
  cases initial.persistedSize with
  | none => exact ⟨by simp, by simp⟩
  | some initialPersisted =>
      dsimp only
      split_ifs <;> exact ⟨by simp, by simp⟩

theorem established_step (h : Established connector) (event : Event) :
    Established (connector.step crc32c enc options event) := by
  unfold Connector.step
  split
  · next hphase => exact absurd hphase h.1
  · next hphase => exact absurd hphase h.1
  · next hphase => exact absurd hphase (h.2 _ _)
  · next attempts loopStart now outcome hphase =>
    unfold Connector.connectAttempt
    cases prepareRequest crc32c enc connector.spec connector.params with
    | error error => exact established_attemptFailed hphase loopStart now _
    | ok prepared =>
        cases outcome with
        | response initial =>
            have hphase' : (Connector.handleResponse { connector with
                log := connector.log ++ [Entry.request prepared.1 prepared.2] } initial).phase =
                  .reconnecting attempts := hphase
            exact established_attemptSucceeded hphase' initial
        | failure failure =>
            have hphase' := (handleRedirect_budgets
              { connector with log := connector.log ++ [Entry.request prepared.1 prepared.2] }
              failure).2.2.2
            exact established_attemptFailed (hphase'.trans hphase) loopStart now failure
  · exact ⟨by simp, by simp⟩
  · exact ⟨by simp, by simp⟩
  · exact h
  · unfold Connector.reconnect
    dsimp only
    split_ifs <;> split <;> exact ⟨by simp, by simp⟩
  · exact h

theorem reconnects_le (hoptions : options.retryPolicy = inner.withAttemptLimit limit)
    (h : Established connector) (events : List Event) :
    connector.lastPersistedSize ≤ (connector.run crc32c enc options events).lastPersistedSize ∧
      ((connector.run crc32c enc options events).lastPersistedSize = connector.lastPersistedSize →
        connector.reconnects crc32c enc options events ≤ connector.budget limit) := by
  induction events generalizing connector with
  | nil => exact ⟨le_rfl, fun _ => Nat.zero_le _⟩
  | cons event events ih =>
      have hpays := pays_step crc32c enc hoptions h event
      obtain ⟨hle, hbound⟩ := ih (established_step h event)
      rcases hpays with hlt | ⟨heq, hcost⟩
      · refine ⟨hlt.le.trans hle, fun hsame => ?_⟩
        exact absurd (hlt.trans_le hle) (by rw [← hsame]; exact lt_irrefl _)
      · refine ⟨heq.symm.le.trans hle, fun hsame => ?_⟩
        have hrest := hbound (hsame.trans heq.symm)
        exact (Nat.add_le_add_left hrest _).trans hcost

/-- While the service persists no new bytes, a policy with a limit of attempts lets the connector
reconnect no more often than there are attempts and redirects. -/
theorem unproductive_reconnects_le (crc32c : Bytes → UInt32) (enc : String → String)
    (inner : RetryPolicy) (limit : ℕ) (backoffPolicy : RetryState → ℕ) (before after : List Event)
    (hconnected : (Connector.new.run crc32c enc ⟨inner.withAttemptLimit limit, backoffPolicy⟩
      before).phase = .connected)
    (hprogress : ((Connector.new.run crc32c enc ⟨inner.withAttemptLimit limit, backoffPolicy⟩
        before).run crc32c enc ⟨inner.withAttemptLimit limit, backoffPolicy⟩
          after).lastPersistedSize =
      (Connector.new.run crc32c enc ⟨inner.withAttemptLimit limit, backoffPolicy⟩
        before).lastPersistedSize) :
    (Connector.new.run crc32c enc ⟨inner.withAttemptLimit limit, backoffPolicy⟩
      before).reconnects crc32c enc ⟨inner.withAttemptLimit limit, backoffPolicy⟩ after ≤
      (limit - 1) + maxRedirectsFollowed := by
  have hestablished : Established (Connector.new.run crc32c enc
      ⟨inner.withAttemptLimit limit, backoffPolicy⟩ before) :=
    ⟨by simp [hconnected], by simp [hconnected]⟩
  refine ((reconnects_le rfl hestablished after).2 hprogress).trans ?_
  exact Nat.add_le_add (Nat.sub_le _ _) (Nat.sub_le _ _)

/-- A redirect and a failure are followed; the second failure is the last. -/
theorem unproductive_reconnects_le_two :
    (Connector.new.run (fun _ => 0) id ⟨Gax.alwaysRetry.withAttemptLimit 2, fun _ => 0⟩
      [.connectReopen ⟨"projects/_/buckets/b", "o", 1, none, none, none, none⟩ none,
        .attempt 0 0 (.response {})]).reconnects (fun _ => 0) id
      ⟨Gax.alwaysRetry.withAttemptLimit 2, fun _ => 0⟩
      [.reconnect 1 ⟨.service ⟨none, .aborted, []⟩, some {}⟩ 0, .attempt 1 2 (.response {}),
        .reconnect 3 ⟨.timeout, none⟩ 0, .attempt 3 4 (.response {}),
        .reconnect 5 ⟨.timeout, none⟩ 0] ≤ (2 - 1) + maxRedirectsFollowed :=
  unproductive_reconnects_le (fun _ => 0) id Gax.alwaysRetry 2 (fun _ => 0)
    [.connectReopen ⟨"projects/_/buckets/b", "o", 1, none, none, none, none⟩ none,
      .attempt 0 0 (.response {})]
    [.reconnect 1 ⟨.service ⟨none, .aborted, []⟩, some {}⟩ 0, .attempt 1 2 (.response {}),
      .reconnect 3 ⟨.timeout, none⟩ 0, .attempt 3 4 (.response {}),
      .reconnect 5 ⟨.timeout, none⟩ 0] (by decide +kernel) (by decide +kernel)

end GoogleCloudRust.BidiWriteConnector
