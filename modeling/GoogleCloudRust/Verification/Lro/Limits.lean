import GoogleCloudRust.Verification.Lro.Protocol

/-! # Polling limits

The poller of AIP-151 and the discovery poller side by side, on answers that say the same. Only the
first one asks the policy about an operation that is in progress. -/

namespace GoogleCloudRust.Lro

variable {ε R M O A : Type*}

/-! ## Decorated policies -/

inductive Limit
  | attempts (maximum : ℕ)
  | time (maximum : ℕ)
deriving DecidableEq, Repr

/-- The decorators over a policy, the first one outermost. -/
def PollingErrorPolicy.limited (inner : PollingErrorPolicy ε) : List Limit → PollingErrorPolicy ε
  | [] => inner
  | .attempts maximum :: limits => (inner.limited limits).withAttemptLimit maximum
  | .time maximum :: limits => (inner.limited limits).withTimeLimit maximum

variable {inner : PollingErrorPolicy ε} {limits : List Limit} {n now : ℕ} {state : PollingState}
  {operationName : String}

theorem attemptCount_lt_of_continue (hlimit : .attempts n ∈ limits) {error error' : Error ε}
    (h : (inner.limited limits).onError state now error = .continue error') :
    state.attemptCount < n := by
  induction limits generalizing error' with
  | nil => cases hlimit
  | cons limit limits ih =>
    cases limit with
    | attempts maximum =>
      simp only [PollingErrorPolicy.limited, PollingErrorPolicy.withAttemptLimit] at h
      split at h
      · cases h
      · cases h
      case h_3 e hinner =>
        rcases List.mem_cons.mp hlimit with heq | hmem
        · cases heq
          split at h
          · cases h
          · omega
        · exact ih hmem hinner
    | time maximum =>
      simp only [PollingErrorPolicy.limited, PollingErrorPolicy.withTimeLimit] at h
      split at h
      · cases h
      · cases h
      case h_3 e hinner => exact ih ((List.mem_cons.mp hlimit).resolve_left (by simp)) hinner

theorem attemptCount_lt_of_onInProgress (hlimit : .attempts n ∈ limits)
    (h : (inner.limited limits).onInProgress state now operationName = .ok ()) :
    state.attemptCount < n := by
  induction limits with
  | nil => cases hlimit
  | cons limit limits ih =>
    cases limit with
    | attempts maximum =>
      simp only [PollingErrorPolicy.limited, PollingErrorPolicy.withAttemptLimit] at h
      split at h
      · cases h
      case h_2 hinner =>
        rcases List.mem_cons.mp hlimit with heq | hmem
        · cases heq
          split at h
          · assumption
          · cases h
        · exact ih hmem hinner
    | time maximum =>
      simp only [PollingErrorPolicy.limited, PollingErrorPolicy.withTimeLimit] at h
      split at h
      · cases h
      case h_2 hinner => exact ih ((List.mem_cons.mp hlimit).resolve_left (by simp)) hinner

/-! ## The number of queries -/

def Call.isQuery : Call → Bool
  | .start => false
  | .query _ => true

/-- The queries of a run. -/
def queries (run : List (Polled ε A R M)) : ℕ :=
  run.countP fun polled => polled.call.any Call.isQuery

/-- A poller goes on after a query only below the limit. -/
def Stops (poll : Poller ε → ℕ → A → Poller ε × Option (PollingResult ε R M)) (n : ℕ) :
    Poller ε → List (ℕ × A) → Prop :=
  Interleaving.Along (fun poller entry => (poll poller entry.1 entry.2).1) fun poller entry =>
    poller.start = false → poller.operation ≠ none →
      (poll poller entry.1 entry.2).1.operation ≠ none → poller.state.attemptCount + 1 < n

section Handlers

variable {handleStart : A → Option String × PollingResult ε R M}
  {handlePoll : PollingErrorPolicy ε → PollingState → ℕ → String → A →
    Option String × PollingResult ε R M}

theorem pollWith_errorPolicy (poller : Poller ε) (now : ℕ) (answer : A) :
    (Poller.pollWith handleStart handlePoll poller now answer).1.errorPolicy =
      poller.errorPolicy := by
  unfold Poller.pollWith
  split
  · rfl
  · split <;> rfl

/-- Each query counts as an attempt. A poller that is still to query is below the limit. -/
theorem queries_add_attemptCount_le {poller : Poller ε} {answers : List (ℕ × A)}
    (hstops : Stops (Poller.pollWith handleStart handlePoll) n poller answers)
    (hle : poller.state.attemptCount ≤ max 1 n)
    (hlt : poller.start = true ∨ poller.operation ≠ none → poller.state.attemptCount < max 1 n) :
    queries (polls (Poller.pollWith handleStart handlePoll) poller answers) +
      poller.state.attemptCount ≤ max 1 n := by
  induction answers generalizing poller with
  | nil => simpa [polls, queries] using hle
  | cons entry answers ih =>
    have htail : Stops (Poller.pollWith handleStart handlePoll) n
        (Poller.pollWith handleStart handlePoll poller entry.1 entry.2).1 answers := hstops.2
    have hhead := hstops.1
    rw [polls, queries, List.countP_cons, ← queries]
    by_cases hstart : poller.start = true
    · have hstep : Poller.pollWith handleStart handlePoll poller entry.1 entry.2 =
          ({ poller with start := false, operation := (handleStart entry.2).1 },
            some (handleStart entry.2).2) := by
        simp [Poller.pollWith, hstart]
      rw [hstep] at htail ⊢
      have hcount := ih htail hle fun _ => hlt (.inl hstart)
      simpa [Poller.call, hstart, Call.isQuery] using hcount
    · cases hoperation : poller.operation with
      | none =>
        have hstep : Poller.pollWith handleStart handlePoll poller entry.1 entry.2 =
            (poller, none) := by
          simp [Poller.pollWith, hstart, hoperation]
        rw [hstep] at htail ⊢
        simpa [Poller.call, hstart, hoperation] using ih htail hle hlt
      | some name =>
        have hbelow := hlt (.inr (by simp [hoperation]))
        have hnext : (Poller.pollWith handleStart handlePoll poller entry.1 entry.2).1.start =
              false ∧
            (Poller.pollWith handleStart handlePoll poller entry.1 entry.2).1.state.attemptCount =
              poller.state.attemptCount + 1 := by
          simp [Poller.pollWith, hstart, hoperation]
        have hcount := ih htail (by omega) fun hgoes => by
          have hon := hgoes.resolve_left (by simp [hnext.1])
          have := hhead (by simpa using hstart) (by simp [hoperation]) hon
          omega
        have hcall : poller.call.any Call.isQuery = true := by
          simp [Poller.call, hstart, hoperation, Call.isQuery]
        rw [hcall]
        simp only [if_true]
        omega

/-- What the handler of a query does, at the poller that calls it. -/
theorem pollWith_query {poller : Poller ε} (hstart : poller.start = false) {name : String}
    (hname : poller.operation = some name) (now : ℕ) (answer : A) :
    Poller.pollWith handleStart handlePoll poller now answer =
      let state := { poller.state with attemptCount := poller.state.attemptCount + 1 }
      let handled := handlePoll poller.errorPolicy state now name answer
      ({ poller with state, operation := handled.1 }, some handled.2) := by
  simp [Poller.pollWith, hstart, hname]

end Handlers

theorem handlePollingError_continues {result : RetryResult ε} {name : String}
    (h : (handlePollingError result name : Option String × PollingResult ε R M).1 ≠ none) :
    ∃ error, result = .continue error := by
  cases result with
  | permanent e => simp [handlePollingError] at h
  | exhausted e => simp [handlePollingError] at h
  | «continue» e => exact ⟨e, rfl⟩

theorem Aip151.handlePoll_below (hlimit : .attempts n ∈ limits) {name : String}
    {answer : Except (Error ε) (Operation R M)}
    (h : (handlePoll (inner.limited limits) state now name answer).1 ≠ none) :
    state.attemptCount < n := by
  cases answer with
  | error e =>
    obtain ⟨error, herror⟩ := handlePollingError_continues h
    exact attemptCount_lt_of_continue hlimit herror
  | ok op =>
    by_cases hdone : op.done = true
    · simp [handlePoll, handleCommon, hdone] at h
    · simp only [handlePoll, handleCommon, hdone, Bool.false_eq_true, if_false] at h
      split at h
      case h_1 hok => exact attemptCount_lt_of_onInProgress hlimit hok
      case h_2 => simp at h

/-- The policy does not object to an operation in progress. -/
def Discovery.Accepted [DiscoveryOperation O] (poller : Poller ε) (now : ℕ) :
    Except (Error ε) O → Prop
  | .error _ => True
  | .ok o =>
      DiscoveryOperation.done o = false → ∀ name, poller.start = false →
        poller.operation = some name →
          poller.errorPolicy.onInProgress
            { poller.state with attemptCount := poller.state.attemptCount + 1 } now name = .ok ()

/-- No answer in progress arrives at which the policy would end the polling. -/
def Discovery.Unhindered [DiscoveryOperation O] : Poller ε → List (ℕ × Except (Error ε) O) → Prop :=
  Interleaving.Along (fun poller entry => (Discovery.poll poller entry.1 entry.2).1)
    fun poller entry => Discovery.Accepted poller entry.1 entry.2

theorem Discovery.handlePoll_below [DiscoveryOperation O] {poller : Poller ε}
    (hpolicy : poller.errorPolicy = inner.limited limits) (hlimit : .attempts n ∈ limits)
    (hstart : poller.start = false) {name : String} (hname : poller.operation = some name)
    {answer : Except (Error ε) O} (haccepted : Accepted poller now answer)
    (h : (handlePoll poller.errorPolicy
      { poller.state with attemptCount := poller.state.attemptCount + 1 } now name answer).1 ≠
        none) :
    poller.state.attemptCount + 1 < n := by
  rw [hpolicy] at h
  cases answer with
  | error e =>
    obtain ⟨error, herror⟩ := handlePollingError_continues h
    exact attemptCount_lt_of_continue hlimit herror
  | ok o =>
    by_cases hdone : DiscoveryOperation.done o = true
    · simp [handlePoll, hdone] at h
    · have hok := haccepted (by simpa using hdone) name hstart hname
      rw [hpolicy] at hok
      exact attemptCount_lt_of_onInProgress hlimit hok

theorem Aip151.stops (hlimit : .attempts n ∈ limits) {poller : Poller ε}
    (hpolicy : poller.errorPolicy = inner.limited limits)
    (answers : List (ℕ × Except (Error ε) (Operation R M))) :
    Stops Aip151.poll n poller answers := by
  induction answers generalizing poller with
  | nil => trivial
  | cons entry answers ih =>
    refine ⟨fun hstart hoperation hon => ?_, ih ?_⟩
    · obtain ⟨name, hname⟩ := Option.ne_none_iff_exists'.mp hoperation
      unfold Aip151.poll at hon
      rw [pollWith_query hstart hname, hpolicy] at hon
      exact handlePoll_below hlimit hon
    · rw [← hpolicy]
      exact pollWith_errorPolicy poller entry.1 entry.2

theorem Discovery.stops [DiscoveryOperation O] (hlimit : .attempts n ∈ limits) {poller : Poller ε}
    (hpolicy : poller.errorPolicy = inner.limited limits)
    {answers : List (ℕ × Except (Error ε) O)} (hunhindered : Unhindered poller answers) :
    Stops Discovery.poll n poller answers := by
  induction answers generalizing poller with
  | nil => trivial
  | cons entry answers ih =>
    refine ⟨fun hstart hoperation hon => ?_, ih ?_ hunhindered.2⟩
    · obtain ⟨name, hname⟩ := Option.ne_none_iff_exists'.mp hoperation
      unfold Discovery.poll at hon
      rw [pollWith_query hstart hname] at hon
      exact handlePoll_below hpolicy hlimit hstart hname hunhindered.1 hon
    · rw [← hpolicy]
      exact pollWith_errorPolicy poller entry.1 entry.2

/-! ## Side by side -/

/-- Answers of both kinds that say the same. -/
inductive Correspond [DiscoveryOperation O] :
    ℕ × Except (Error ε) (Operation R M) → ℕ × Except (Error ε) O → Prop
  | error (now : ℕ) (e : Error ε) : Correspond (now, .error e) (now, .error e)
  | inProgress (now : ℕ) {op : Operation R M} {o : O} (hop : op.done = false)
      (ho : DiscoveryOperation.done o = false) (hname : DiscoveryOperation.name o = some op.name) :
      Correspond (now, .ok op) (now, .ok o)
  | done (now : ℕ) {op : Operation R M} {o : O} (hop : op.done = true)
      (ho : DiscoveryOperation.done o = true) : Correspond (now, .ok op) (now, .ok o)

/-- The same decision: the same call was made, and its answer is taken the same way. The pollers go
on with the same name, which is the next call, or complete with the same error. -/
inductive Alike : Polled ε (Except (Error ε) (Operation R M)) R M →
    Polled ε (Except (Error ε) O) O O → Prop
  | inProgress (call : Option Call) (op : Operation R M) (o : O) :
      Alike ⟨call, .ok op, some (.inProgress op.metadata)⟩ ⟨call, .ok o, some (.inProgress (some o))⟩
  | finished (call : Option Call) (op : Operation R M) (o : O) :
      Alike ⟨call, .ok op, some (.completed (asResult op))⟩ ⟨call, .ok o, some (.completed (.ok o))⟩
  | pollingError (call : Option Call) {a : Except (Error ε) (Operation R M)}
      {d : Except (Error ε) O} (error : Error ε) :
      Alike ⟨call, a, some (.pollingError error)⟩ ⟨call, d, some (.pollingError error)⟩
  | stopped (call : Option Call) {a : Except (Error ε) (Operation R M)} {d : Except (Error ε) O}
      (error : Error ε) :
      Alike ⟨call, a, some (.completed (.error error))⟩ ⟨call, d, some (.completed (.error error))⟩
  | ended {a : Except (Error ε) (Operation R M)} {d : Except (Error ε) O} :
      Alike ⟨none, a, none⟩ ⟨none, d, none⟩

theorem Alike.inProgress_left {x : Polled ε (Except (Error ε) (Operation R M)) R M}
    {y : Polled ε (Except (Error ε) O) O O} (h : Alike x y) {o : Option O}
    (hresult : y.result = some (.inProgress o)) :
    ∃ metadata, x.result = some (.inProgress metadata) := by
  cases h with
  | inProgress call op o => exact ⟨_, rfl⟩
  | finished call op o => cases hresult
  | pollingError call error => cases hresult
  | stopped call error => cases hresult
  | ended => cases hresult

theorem handlePollingError_alike {a : Except (Error ε) (Operation R M)} {d : Except (Error ε) O}
    (result : RetryResult ε) (name : String) (call : Option Call) :
    (handlePollingError result name : Option String × PollingResult ε R M).1 =
        (handlePollingError result name : Option String × PollingResult ε O O).1 ∧
      Alike ⟨call, a, some (handlePollingError result name).2⟩
        ⟨call, d, some (handlePollingError result name).2⟩ := by
  cases result with
  | permanent e => exact ⟨rfl, .stopped call e⟩
  | exhausted e => exact ⟨rfl, .stopped call e⟩
  | «continue» e => exact ⟨rfl, .pollingError call e⟩

section Lockstep

variable [DiscoveryOperation O] {a : Except (Error ε) (Operation R M)} {d : Except (Error ε) O}

/-- The handlers of an answer to `start` differ in nothing. -/
theorem handleStart_alike (h : Correspond (now, a) (now, d)) (call : Option Call) :
    (Aip151.handleStart a).1 = (Discovery.handleStart d).1 ∧
      Alike ⟨call, a, some (Aip151.handleStart a).2⟩
        ⟨call, d, some (Discovery.handleStart d).2⟩ := by
  cases h with
  | error now e => exact ⟨rfl, .stopped call e⟩
  | inProgress now hop ho hname =>
    simp only [Aip151.handleStart, Aip151.handleCommon, Discovery.handleStart,
      Discovery.handlePollingSuccess, hop, ho, hname, Bool.false_eq_true, if_false]
    exact ⟨trivial, .inProgress call _ _⟩
  | done now hop ho =>
    simp only [Aip151.handleStart, Aip151.handleCommon, Discovery.handleStart, hop, ho, if_true]
    exact ⟨trivial, .finished call _ _⟩

/-- The answer is not an operation in progress, or the policy accepts it. -/
def PollingErrorPolicy.Accepts (policy : PollingErrorPolicy ε) (state : PollingState) (now : ℕ)
    (name : String) : Except (Error ε) O → Prop
  | .error _ => True
  | .ok o => DiscoveryOperation.done o = false → policy.onInProgress state now name = .ok ()

theorem handlePoll_alike (h : Correspond (now, a) (now, d)) {policy : PollingErrorPolicy ε}
    {name : String} (haccepts : policy.Accepts state now name d) (call : Option Call) :
    (Aip151.handlePoll policy state now name a).1 =
        (Discovery.handlePoll policy state now name d).1 ∧
      Alike ⟨call, a, some (Aip151.handlePoll policy state now name a).2⟩
        ⟨call, d, some (Discovery.handlePoll policy state now name d).2⟩ := by
  cases h with
  | error now e => exact handlePollingError_alike _ name call
  | inProgress now hop ho hname =>
    simp only [Aip151.handlePoll, Aip151.handleCommon, Discovery.handlePoll,
      Discovery.handlePollingSuccess, hop, ho, hname, Bool.false_eq_true, if_false, haccepts ho]
    exact ⟨trivial, .inProgress call _ _⟩
  | done now hop ho =>
    simp only [Aip151.handlePoll, Aip151.handleCommon, Discovery.handlePoll, hop, ho, if_true]
    exact ⟨trivial, .finished call _ _⟩

/-- Where the policy objects, the first poller completes and the discovery poller goes on. -/
theorem handlePoll_unlike (h : Correspond (now, a) (now, d)) {policy : PollingErrorPolicy ε}
    {name : String} (hrejects : ¬policy.Accepts state now name d) (call : Option Call) :
    ¬Alike ⟨call, a, some (Aip151.handlePoll policy state now name a).2⟩
      ⟨call, d, some (Discovery.handlePoll policy state now name d).2⟩ := by
  cases h with
  | error now e => exact absurd trivial hrejects
  | inProgress now hop ho hname =>
    cases hpolicy : policy.onInProgress state now name with
    | ok => exact absurd (fun _ => hpolicy) hrejects
    | error e =>
      simp only [Aip151.handlePoll, Aip151.handleCommon, Discovery.handlePoll,
        Discovery.handlePollingSuccess, hop, ho, hpolicy, Bool.false_eq_true, if_false]
      intro halike
      obtain ⟨metadata, hresult⟩ := halike.inProgress_left rfl
      cases hresult
  | done now hop ho => exact absurd (fun hfalse => by simp [ho] at hfalse) hrejects

/-- One call of `poll` of both pollers, from the same state. -/
theorem poll_alike (h : Correspond (now, a) (now, d)) (poller : Poller ε) :
    (Discovery.Accepted poller now d ↔
      Alike ⟨poller.call, a, (Aip151.poll poller now a).2⟩
        ⟨poller.call, d, (Discovery.poll poller now d).2⟩) ∧
    (Discovery.Accepted poller now d →
      (Aip151.poll poller now a).1 = (Discovery.poll poller now d).1) := by
  unfold Aip151.poll Discovery.poll
  by_cases hstart : poller.start = true
  · have halike := handleStart_alike h poller.call
    have haccepted : Discovery.Accepted poller now d := by
      cases d with
      | error e => trivial
      | ok o => exact fun _ name hfalse => by simp [hstart] at hfalse
    simp only [Poller.pollWith, hstart, if_true, halike.1, haccepted, true_iff, true_implies]
    exact ⟨halike.2, trivial⟩
  · cases hname : poller.operation with
    | none =>
      have haccepted : Discovery.Accepted poller now d := by
        cases d with
        | error e => trivial
        | ok o => exact fun _ name _ hfalse => by simp [hname] at hfalse
      have hcall : poller.call = none := by simp [Poller.call, hstart, hname]
      simp only [Poller.pollWith, hstart, hname, haccepted, hcall, true_iff, true_implies]
      exact ⟨.ended, rfl⟩
    | some name =>
      have hlater : poller.start = false := by simpa using hstart
      have haccepted : Discovery.Accepted poller now d ↔ poller.errorPolicy.Accepts
          { poller.state with attemptCount := poller.state.attemptCount + 1 } now name d := by
        cases d with
        | error e => exact Iff.rfl
        | ok o => simp [Discovery.Accepted, PollingErrorPolicy.Accepts, hlater, hname]
      rw [pollWith_query hlater hname, pollWith_query hlater hname, haccepted]
      by_cases haccepts : poller.errorPolicy.Accepts
          { poller.state with attemptCount := poller.state.attemptCount + 1 } now name d
      · have halike := handlePoll_alike h haccepts poller.call
        exact ⟨iff_of_true haccepts halike.2, fun _ => by simp only [halike.1]⟩
      · exact ⟨iff_of_false haccepts (handlePoll_unlike h haccepts poller.call),
          fun hfalse => absurd hfalse haccepts⟩

theorem polls_alike {as : List (ℕ × Except (Error ε) (Operation R M))}
    {ds : List (ℕ × Except (Error ε) O)} (h : List.Forall₂ Correspond as ds) (poller : Poller ε) :
    Discovery.Unhindered poller ds ↔
      List.Forall₂ Alike (polls Aip151.poll poller as) (polls Discovery.poll poller ds) := by
  induction h generalizing poller with
  | nil => exact iff_of_true trivial .nil
  | @cons a d as ds hhead htail ih =>
    obtain ⟨now, a⟩ := a
    obtain ⟨now', d⟩ := d
    obtain rfl : now = now' := by cases hhead <;> rfl
    obtain ⟨halike, hsame⟩ := poll_alike hhead poller
    rw [polls, polls, List.forall₂_cons, ← halike]
    refine and_congr_right fun haccepted => ?_
    rw [hsame haccepted]
    exact ih _

end Lockstep

/-- Both pollers take the same decision at every step exactly when no answer in progress arrives at
which the policy would end the polling. A limit of attempts bounds the queries of the poller of
AIP-151 always, those of the discovery poller under that condition. -/
theorem pollers_honour_limits [DiscoveryOperation O] (inner : PollingErrorPolicy ε)
    (limits : List Limit) (start : ℕ) :
    (∀ (as : List (ℕ × Except (Error ε) (Operation R M))) (ds : List (ℕ × Except (Error ε) O)),
      List.Forall₂ Correspond as ds →
        (Discovery.Unhindered (.new (inner.limited limits) start) ds ↔
          List.Forall₂ Alike (polls Aip151.poll (.new (inner.limited limits) start) as)
            (polls Discovery.poll (.new (inner.limited limits) start) ds))) ∧
    (∀ n, .attempts n ∈ limits → ∀ as : List (ℕ × Except (Error ε) (Operation R M)),
      queries (polls Aip151.poll (.new (inner.limited limits) start) as) ≤ max 1 n) ∧
    ∀ n, .attempts n ∈ limits → ∀ ds : List (ℕ × Except (Error ε) O),
      Discovery.Unhindered (.new (inner.limited limits) start) ds →
        queries (polls Discovery.poll (.new (inner.limited limits) start) ds) ≤ max 1 n := by
  refine ⟨fun as ds h => polls_alike h _, fun n hlimit as => ?_,
    fun n hlimit ds hunhindered => ?_⟩
  · have hstops : Stops Aip151.poll n (.new (inner.limited limits) start) as :=
      Aip151.stops hlimit rfl as
    exact queries_add_attemptCount_le hstops (by simp [Poller.new]) fun _ => by simp [Poller.new]
  · have hstops := Discovery.stops hlimit rfl hunhindered
    exact queries_add_attemptCount_le hstops (by simp [Poller.new]) fun _ => by simp [Poller.new]

theorem pollers_honour_limits_finished :
    List.Forall₂ Alike
      (polls Aip151.poll (.new ((alwaysContinue (ε := Unit)).limited [.attempts 3, .time 9]) 0)
        [(0, .ok (Operation.mk "j" false (some ()) none)), (1, .error (.request ())),
          (2, .ok { name := "j" }), (3, .ok ⟨"j", true, none, some (.response (.ok ()))⟩)])
      (polls Discovery.poll (.new ((alwaysContinue (ε := Unit)).limited [.attempts 3, .time 9]) 0)
        [(0, .ok (Job.mk false (some "j"))), (1, .error (.request ())),
          (2, .ok ⟨false, some "j"⟩), (3, .ok ⟨true, none⟩)]) :=
  ((pollers_honour_limits alwaysContinue [.attempts 3, .time 9] 0).1 _ _
    (.cons (.inProgress 0 rfl rfl rfl) (.cons (.error 1 _)
      (.cons (.inProgress 2 rfl rfl rfl) (.cons (.done 3 rfl rfl) .nil))))).mp
    ⟨fun _ _ hfalse => by simp [Poller.new] at hfalse, trivial,
      fun _ _ _ _ => rfl, fun hfalse => by simp [DiscoveryOperation.done] at hfalse, trivial⟩

/-- With one attempt, the poller of AIP-151 completes after one query. The discovery poller queries
as long as the operation is in progress. -/
theorem discovery_passes_limit :
    queries (polls Aip151.poll (.new ((alwaysContinue (ε := Unit)).limited [.attempts 1]) 0)
      (List.replicate 4 (0, .ok (Operation.mk (R := Unit) (M := Unit) "j" false none none)))) = 1 ∧
    queries (polls Discovery.poll (.new ((alwaysContinue (ε := Unit)).limited [.attempts 1]) 0)
      (List.replicate 4 (0, .ok (Job.mk false (some "j"))))) = 3 ∧
    ¬queries (polls Discovery.poll (.new ((alwaysContinue (ε := Unit)).limited [.attempts 1]) 0)
      (List.replicate 4 (0, .ok (Job.mk false (some "j"))))) ≤ max 1 1 := by
  decide +kernel

end GoogleCloudRust.Lro
