import GoogleCloudRust.Library.Highest
import GoogleCloudRust.Model.Precommit
import GoogleCloudRust.Model.ReadWriteTransaction
import GoogleCloudRust.Verification.Wkt.Clamp

/-! # Commits send the highest token

The tracker holds the token with the highest sequence number of all that were received, in whatever
order. A commit sends it with the mutations, and a retry sends one that is at least as high as the
one that was asked for, without them. -/

namespace GoogleCloudRust.Precommit

open Highest (offer offers IsHighest)
open LazyTransaction (Error)

/-! ## The tracker -/

/-- The tokens that responses brought. -/
def tokens (history : List (Option PrecommitToken)) : List PrecommitToken := history.filterMap id

def number (token : PrecommitToken) : ℤ := token.seqNum.toInt

namespace PrecommitTokenTracker

theorem update_track (guard : Option PrecommitToken) (token : PrecommitToken) :
    (track guard).update (some token) = track (offer number guard token) := by
  cases guard with
  | none => rfl
  | some current =>
      by_cases hlt : current.seqNum < token.seqNum
      · have hnumber : number current < number token := Int32.lt_iff_toInt_lt.mp hlt
        simp [update, offer, hlt, hnumber]
      · have hnumber : ¬number current < number token := fun h =>
          hlt (Int32.lt_iff_toInt_lt.mpr h)
        simp [update, offer, hlt, hnumber]

theorem updates_track (guard : Option PrecommitToken) (history : List (Option PrecommitToken)) :
    (track guard).updates history = track (offers number guard (tokens history)) := by
  induction history generalizing guard with
  | nil => rfl
  | cons token history ih =>
      cases token with
      | none => exact ih guard
      | some token =>
          have hstep := ih (offer number guard token)
          rw [← update_track] at hstep
          exact hstep

theorem updates_append (tracker : PrecommitTokenTracker)
    (history more : List (Option PrecommitToken)) :
    tracker.updates (history ++ more) = (tracker.updates history).updates more :=
  List.foldl_append

/-- The tracker holds the highest token that it received. -/
theorem isHighest_get (history : List (Option PrecommitToken)) :
    IsHighest number (tokens history) (new.updates history).get := by
  have hempty : IsHighest number [] none := rfl
  rw [new, updates_track]
  exact Highest.isHighest_offers hempty (tokens history)

end PrecommitTokenTracker

/-- Tokens are told apart by their sequence numbers. -/
def Distinct (history : List (Option PrecommitToken)) : Prop :=
  ∀ a ∈ tokens history, ∀ b ∈ tokens history, a.seqNum = b.seqNum → a = b

/-- The order of the tokens, and how often each comes, do not matter. -/
theorem updates_eq_of_same_tokens {history history' : List (Option PrecommitToken)}
    (hdistinct : Distinct history)
    (hsame : ∀ token, token ∈ tokens history ↔ token ∈ tokens history') :
    PrecommitTokenTracker.new.updates history' = PrecommitTokenTracker.new.updates history := by
  have hget := (PrecommitTokenTracker.isHighest_get history).unique
    (PrecommitTokenTracker.isHighest_get history') hsame fun a ha b hb hnumber =>
      hdistinct a ha b hb (Int32.toInt_inj.mp hnumber)
  rw [PrecommitTokenTracker.new, PrecommitTokenTracker.updates_track,
    PrecommitTokenTracker.updates_track] at hget ⊢
  exact congrArg PrecommitTokenTracker.track hget.symm

/-! ## The retry -/

/-- A delay is never dropped. -/
theorem toWktDuration_ne_none (duration : StdDuration) : toWktDuration duration ≠ none := by
  unfold toWktDuration
  intro hnone
  obtain ⟨d, hd, -⟩ := Wkt.Duration.clamp_saturates _ _
  rw [hd] at hnone
  cases hnone

section

variable {Mutation : Type}

/-- What a retry keeps of the request. -/
structure SameFrame (request retry : CommitRequest Mutation) : Prop where
  session : retry.session = request.session
  transactionId : retry.transactionId = request.transactionId
  requestOptions : retry.requestOptions = request.requestOptions
  maxCommitDelay : retry.maxCommitDelay = request.maxCommitDelay
  returnCommitStats : retry.returnCommitStats = request.returnCommitStats

/-- The token is the highest one after the directive of the first answer, and at least as high. -/
def AnswersDirective (history : List (Option PrecommitToken)) (answers : Answers)
    (token : Option PrecommitToken) : Prop :=
  ∃ response directive highest, answers.first = .ok response ∧
    response.multiplexedSessionRetry = some directive ∧ token = some highest ∧
    directive.seqNum ≤ highest.seqNum ∧
    IsHighest number (tokens (history ++ answers.duringFirst ++
      some directive :: answers.beforeSecond)) token

theorem answersDirective {history : List (Option PrecommitToken)} {answers : Answers}
    {response : CommitResponse} {directive : PrecommitToken}
    (hfirst : answers.first = .ok response)
    (hretry : response.multiplexedSessionRetry = some directive) :
    AnswersDirective history answers
      (PrecommitTokenTracker.new.updates
        (history ++ answers.duringFirst ++ some directive :: answers.beforeSecond)).get := by
  have hhighest := PrecommitTokenTracker.isHighest_get
    (history ++ answers.duringFirst ++ some directive :: answers.beforeSecond)
  have hmem : directive ∈ tokens
      (history ++ answers.duringFirst ++ some directive :: answers.beforeSecond) := by
    simp [tokens]
  cases hget : (PrecommitTokenTracker.new.updates
      (history ++ answers.duringFirst ++ some directive :: answers.beforeSecond)).get with
  | none =>
      rw [hget] at hhighest
      rw [show tokens _ = [] from hhighest] at hmem
      exact absurd hmem List.not_mem_nil
  | some highest =>
      rw [hget] at hhighest
      exact ⟨response, directive, highest, hfirst, hretry, rfl,
        Int32.le_iff_toInt_le.mpr (hhighest.2 directive hmem), hhighest⟩

/-- One request, or a second one after an answer with a directive. -/
theorem commitWithPrecommitRetry_cases (request : CommitRequest Mutation)
    (history : List (Option PrecommitToken))
    (build : Option PrecommitToken → CommitRequest Mutation) (answers : Answers)
    {outcome : Outcome Mutation}
    (h : commitWithPrecommitRetry request (PrecommitTokenTracker.new.updates history) build
      answers = outcome) :
    (outcome.requests = [request] ∧ outcome.result = answers.first ∧
        ∀ response, answers.first = .ok response → response.multiplexedSessionRetry = none) ∨
      ∃ token, AnswersDirective history answers token ∧
        outcome.requests = [request, build token] ∧
        ∀ response, outcome.result = .ok response → answers.second = .ok response ∧
          response.multiplexedSessionRetry = none := by
  subst h
  unfold commitWithPrecommitRetry
  cases hfirst : answers.first with
  | error error => simp
  | ok response =>
      cases hretry : response.multiplexedSessionRetry with
      | none => simp [hretry]
      | some directive =>
          right
          have htracker : (((PrecommitTokenTracker.new.updates history).updates
              answers.duringFirst).update (some directive)).updates answers.beforeSecond =
              PrecommitTokenTracker.new.updates
                (history ++ answers.duringFirst ++ some directive :: answers.beforeSecond) := by
            rw [PrecommitTokenTracker.updates_append, PrecommitTokenTracker.updates_append]
            rfl
          refine ⟨_, answersDirective hfirst hretry, ?_⟩
          rw [← htracker]
          cases hsecond : answers.second with
          | error error => simp [hretry]
          | ok retryResponse =>
              cases hagain : retryResponse.multiplexedSessionRetry with
              | none => simp [hretry, hagain]
              | some token => simp [hretry, hagain]

/-- An answer without its token. -/
def CommitResponse.plain (response : CommitResponse) : ReadWrite.CommitResponse :=
  ⟨response.commitTimestamp, response.multiplexedSessionRetry.isSome⟩

/-- The result is that of the model without tokens. -/
theorem result_plain (request : CommitRequest Mutation) (tracker : PrecommitTokenTracker)
    (build : Option PrecommitToken → CommitRequest Mutation) (answers : Answers)
    (client : ReadWrite.DatabaseClient) (transaction : ReadWrite.ReadWriteTransaction)
    (begin : Except Error Bytes) :
    (commitWithPrecommitRetry request tracker build answers).result.map CommitResponse.plain =
      (transaction.commitWithPrecommitRetry client
        { begin, first := answers.first.map CommitResponse.plain
          second := answers.second.map CommitResponse.plain }).2 := by
  unfold commitWithPrecommitRetry ReadWrite.ReadWriteTransaction.commitWithPrecommitRetry
  cases hfirst : answers.first with
  | error error => rfl
  | ok response =>
      cases hretry : response.multiplexedSessionRetry with
      | none => simp [Except.map, CommitResponse.plain, hretry]
      | some directive =>
          cases hsecond : answers.second with
          | error error => simp [Except.map, CommitResponse.plain, hretry]
          | ok retryResponse =>
              cases hagain : retryResponse.multiplexedSessionRetry with
              | none => simp [Except.map, CommitResponse.plain, hretry, hagain]
              | some token => simp [Except.map, CommitResponse.plain, hretry, hagain]

/-! ## Commits of a transaction -/

theorem sameFrame (transaction : ReadWriteTransaction Mutation) (transactionId : Bytes)
    (mutations : List Mutation) (token token' : Option PrecommitToken) :
    SameFrame (transaction.buildCommitRequest transactionId mutations token)
      (transaction.buildRetryCommitRequest transactionId token') :=
  ⟨rfl, rfl, rfl, rfl, rfl⟩

/-- The first request has the mutations and the highest token, the second one the same frame, no
mutations and a token that answers the directive; a commit returns an answer without one. -/
structure Honest (history : List (Option PrecommitToken)) (mutations : List Mutation)
    (answers : Answers) (outcome : Outcome Mutation) : Prop where
  length_le : outcome.requests.length ≤ 2
  first : ∀ request ∈ outcome.requests.head?,
    IsHighest number (tokens history) request.precommitToken ∧ request.mutations = mutations
  second : ∀ request retry, outcome.requests = [request, retry] → retry.mutations = [] ∧
    SameFrame request retry ∧ AnswersDirective history answers retry.precommitToken
  result : ∀ response, outcome.result = .ok response → response.multiplexedSessionRetry = none ∧
    (outcome.requests.length = 1 ∧ answers.first = .ok response ∨
      outcome.requests.length = 2 ∧ answers.second = .ok response)

theorem honest_of_sent {transaction : ReadWriteTransaction Mutation}
    {history : List (Option PrecommitToken)}
    (hreceived : transaction.precommitTokenTracker = PrecommitTokenTracker.new.updates history)
    (transactionId : Bytes) (answers : Answers) :
    Honest history transaction.mutations answers
      (transaction.commitInternal (.ok transactionId) answers).2 := by
  have hhighest := PrecommitTokenTracker.isHighest_get history
  simp only [ReadWriteTransaction.commitInternal]
  rw [hreceived]
  generalize houtcome : commitWithPrecommitRetry _ _ _ answers = outcome
  rcases commitWithPrecommitRetry_cases _ _ _ _ houtcome with
    ⟨hrequests, hresult, hfirst⟩ | ⟨token, hdirective, hrequests, hsecond⟩
  · refine ⟨by simp [hrequests], ?_, ?_, ?_⟩
    · intro request hrequest
      rw [hrequests] at hrequest
      obtain rfl := Option.some.inj hrequest
      exact ⟨hhighest, rfl⟩
    · intro request retry htwo
      simp [hrequests] at htwo
    · intro response hok
      rw [hresult] at hok
      exact ⟨hfirst response hok, .inl ⟨by simp [hrequests], hok⟩⟩
  · refine ⟨by simp [hrequests], ?_, ?_, ?_⟩
    · intro request hrequest
      rw [hrequests] at hrequest
      obtain rfl := Option.some.inj hrequest
      exact ⟨hhighest, rfl⟩
    · intro request retry htwo
      rw [hrequests] at htwo
      obtain ⟨rfl, hrest⟩ := List.cons.inj htwo
      obtain ⟨rfl, -⟩ := List.cons.inj hrest
      exact ⟨rfl, sameFrame transaction transactionId _ _ _, hdirective⟩
    · intro response hok
      obtain ⟨hanswer, hnone⟩ := hsecond response hok
      exact ⟨hnone, .inr ⟨by simp [hrequests], hanswer⟩⟩

/-- Nothing is sent without a transaction id. -/
theorem honest_of_error (transaction : ReadWriteTransaction Mutation) (error : Error)
    (history : List (Option PrecommitToken)) (answers : Answers) :
    Honest history transaction.mutations answers
      (transaction.commitInternal (.error error) answers).2 := by
  refine ⟨by simp [ReadWriteTransaction.commitInternal], ?_, ?_, ?_⟩
  · intro request hrequest
    cases hrequest
  · intro request retry htwo
    cases htwo
  · intro response hok
    cases hok

end

end GoogleCloudRust.Precommit
