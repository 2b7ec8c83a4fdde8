import GoogleCloudRust.Library.Interleaving
import GoogleCloudRust.Model.Lro

/-! # The polling protocol

What a run of `poll` may look like, and that both pollers keep to it as long as an operation in
progress has a name. -/

namespace GoogleCloudRust.Lro

variable {ε R M O A : Type*}

/-- One call of `poll`: the call it makes, the answer to that call, and what it returns. -/
structure Polled (ε A R M : Type*) where
  call : Option Call
  answer : A
  result : Option (PollingResult ε R M)

/-- The calls of `poll`, one after the other, at the given times and with the given answers. -/
def polls (poll : Poller ε → ℕ → A → Poller ε × Option (PollingResult ε R M)) :
    Poller ε → List (ℕ × A) → List (Polled ε A R M)
  | _, [] => []
  | poller, (now, answer) :: answers =>
      ⟨poller.call, answer, (poll poller now answer).2⟩ ::
        polls poll (poll poller now answer).1 answers

/-- Every answer that a poller receives is one that is admitted. Only a poller that makes a call
receives an answer. -/
def Admitted (poll : Poller ε → ℕ → A → Poller ε × Option (PollingResult ε R M))
    (admits : A → Prop) : Poller ε → List (ℕ × A) → Prop :=
  Interleaving.Along (fun poller entry => (poll poller entry.1 entry.2).1)
    fun poller entry => poller.call ≠ none → admits entry.2

/-- The runs of the protocol, from the call that is due. After an answer in progress the name it
carries is queried, after a polling error the same name again; after `Completed` there are no calls
and no values. -/
inductive Protocol (nameOf : A → Option String) : Call → List (Polled ε A R M) → Prop
  | nil (call : Call) : Protocol nameOf call []
  | completed {call : Call} {answer : A} {result : Except (Error ε) R}
      {rest : List (Polled ε A R M)}
      (hrest : ∀ polled ∈ rest, polled.call = none ∧ polled.result = none) :
      Protocol nameOf call (⟨some call, answer, some (.completed result)⟩ :: rest)
  | inProgress {call : Call} {answer : A} {metadata : Option M} {name : String}
      {rest : List (Polled ε A R M)} (hname : nameOf answer = some name)
      (hrest : Protocol nameOf (.query name) rest) :
      Protocol nameOf call (⟨some call, answer, some (.inProgress metadata)⟩ :: rest)
  | pollingError {answer : A} {error : Error ε} {name : String} {rest : List (Polled ε A R M)}
      (hrest : Protocol nameOf (.query name) rest) :
      Protocol nameOf (.query name)
        (⟨some (.query name), answer, some (.pollingError error)⟩ :: rest)

/-- What an answer leads to: the next name to query, and the value of `poll`. -/
inductive Leads (nameOf : A → Option String) (call : Call) (answer : A) :
    Option String × PollingResult ε R M → Prop
  | completed (result : Except (Error ε) R) : Leads nameOf call answer (none, .completed result)
  | inProgress (metadata : Option M) {name : String} (hname : nameOf answer = some name) :
      Leads nameOf call answer (some name, .inProgress metadata)
  | pollingError (error : Error ε) {name : String} (hcall : call = .query name) :
      Leads nameOf call answer (some name, .pollingError error)

theorem leads_handlePollingError (nameOf : A → Option String) (answer : A) (state : RetryResult ε)
    (name : String) :
    Leads nameOf (.query name) answer
      (handlePollingError state name : Option String × PollingResult ε R M) := by
  cases state with
  | permanent e => exact .completed _
  | exhausted e => exact .completed _
  | «continue» e => exact .pollingError e rfl

/-! ## Any poller whose handlers keep to the rules -/

section Handlers

variable {nameOf : A → Option String} {admits : A → Prop}
  {handleStart : A → Option String × PollingResult ε R M}
  {handlePoll : PollingErrorPolicy ε → PollingState → ℕ → String → A →
    Option String × PollingResult ε R M}

/-- A poller that has completed. -/
def Poller.Ended (poller : Poller ε) : Prop := poller.start = false ∧ poller.operation = none

theorem polls_ended {poller : Poller ε} (h : poller.Ended) (answers : List (ℕ × A)) :
    ∀ polled ∈ polls (Poller.pollWith handleStart handlePoll) poller answers,
      polled.call = none ∧ polled.result = none := by
  induction answers with
  | nil =>
    intro polled hmem
    cases hmem
  | cons entry answers ih =>
    have hpoll : Poller.pollWith handleStart handlePoll poller entry.1 entry.2 =
        (poller, none) := by
      simp [Poller.pollWith, h.1, h.2]
    intro polled hmem
    rw [polls, hpoll] at hmem
    rcases List.mem_cons.mp hmem with rfl | hmem
    · exact ⟨by simp [Poller.call, h.1, h.2], rfl⟩
    · exact ih polled hmem

/-- One call of `poll`: it makes the call that is due, and moves as the handlers tell. -/
theorem pollWith_leads
    (hstart : ∀ answer, admits answer → Leads nameOf .start answer (handleStart answer))
    (hpoll : ∀ policy state now name answer, admits answer →
      Leads nameOf (.query name) answer (handlePoll policy state now name answer))
    {poller : Poller ε} {call : Call} (hcall : poller.call = some call) (now : ℕ) {answer : A}
    (hadmits : admits answer) :
    ∃ operation result poller',
      Poller.pollWith handleStart handlePoll poller now answer = (poller', some result) ∧
      poller'.start = false ∧ poller'.operation = operation ∧
      Leads nameOf call answer (operation, result) := by
  unfold Poller.call at hcall
  unfold Poller.pollWith
  split at hcall
  case isTrue hfirst =>
    obtain rfl := Option.some.inj hcall
    rw [if_pos hfirst]
    exact ⟨_, _, _, rfl, rfl, rfl, hstart answer hadmits⟩
  case isFalse hlater =>
    obtain ⟨name, hname, rfl⟩ := Option.map_eq_some_iff.mp hcall
    rw [if_neg hlater, hname]
    exact ⟨_, _, _, rfl, by simpa using hlater, rfl, hpoll _ _ now name answer hadmits⟩

theorem polls_protocol
    (hstart : ∀ answer, admits answer → Leads nameOf .start answer (handleStart answer))
    (hpoll : ∀ policy state now name answer, admits answer →
      Leads nameOf (.query name) answer (handlePoll policy state now name answer))
    {poller : Poller ε} {call : Call} (hcall : poller.call = some call)
    {answers : List (ℕ × A)}
    (hadmits : Admitted (Poller.pollWith handleStart handlePoll) admits poller answers) :
    Protocol nameOf call (polls (Poller.pollWith handleStart handlePoll) poller answers) := by
  induction answers generalizing poller call with
  | nil => exact .nil call
  | cons entry answers ih =>
    obtain ⟨now, answer⟩ := entry
    have htail : Admitted (Poller.pollWith handleStart handlePoll) admits
        (Poller.pollWith handleStart handlePoll poller now answer).1 answers := hadmits.2
    obtain ⟨operation, result, poller', heq, hbegun, hoperation, hleads⟩ :=
      pollWith_leads hstart hpoll hcall now (hadmits.1 (by simp [hcall]))
    rw [polls, heq, hcall]
    rw [heq] at htail
    have hnext : ∀ name, operation = some name → poller'.call = some (.query name) := by
      intro name hname
      simp [Poller.call, hbegun, hoperation, hname]
    generalize hpair : (operation, result) = pair at hleads
    cases hleads with
    | completed value =>
      cases hpair
      exact .completed (polls_ended ⟨hbegun, hoperation⟩ answers)
    | inProgress metadata hname =>
      cases hpair
      exact .inProgress hname (ih (hnext _ rfl) htail)
    | pollingError error hquery =>
      cases hpair
      subst hquery
      exact .pollingError (ih (hnext _ rfl) htail)

end Handlers

/-! ## The loop of `until_done` -/

/-- What `until_done` makes of the values of `poll`. -/
def outcome : List (Polled ε A R M) → UntilDone ε R
  | [] => .polling
  | ⟨_, _, some (.completed result)⟩ :: _ => .returned result
  | ⟨_, _, some (.inProgress _)⟩ :: rest => outcome rest
  | ⟨_, _, some (.pollingError _)⟩ :: rest => outcome rest
  | ⟨_, _, none⟩ :: _ => .unreachable

theorem untilDone_eq_outcome
    (poll : Poller ε → ℕ → A → Poller ε × Option (PollingResult ε R M)) (poller : Poller ε)
    (answers : List (ℕ × A)) :
    untilDone poll poller answers = outcome (polls poll poller answers) := by
  induction answers generalizing poller with
  | nil => rfl
  | cons entry answers ih =>
    rw [untilDone, polls]
    rcases poll poller entry.1 entry.2 with ⟨poller', _ | (_ | _ | _)⟩
    · rfl
    · exact ih poller'
    · rfl
    · exact ih poller'

section Outcome

variable {nameOf : A → Option String} {call : Call} {run : List (Polled ε A R M)}

theorem Protocol.outcome_ne_unreachable (h : Protocol nameOf call run) :
    outcome run ≠ .unreachable := by
  induction h with
  | nil call => simp [outcome]
  | completed hrest => simp [outcome]
  | inProgress hname hrest ih => exact ih
  | pollingError hrest ih => exact ih

theorem Protocol.outcome_returned (h : Protocol nameOf call run) {polled : Polled ε A R M}
    (hmem : polled ∈ run) {result : Except (Error ε) R}
    (hresult : polled.result = some (.completed result)) : outcome run = .returned result := by
  induction h with
  | nil call => cases hmem
  | completed hrest =>
    rcases List.mem_cons.mp hmem with rfl | hmem
    · cases hresult
      rfl
    · rw [(hrest polled hmem).2] at hresult
      cases hresult
  | inProgress hname hrest ih =>
    rcases List.mem_cons.mp hmem with rfl | hmem
    · cases hresult
    · exact ih hmem
  | pollingError hrest ih =>
    rcases List.mem_cons.mp hmem with rfl | hmem
    · cases hresult
    · exact ih hmem

end Outcome

/-! ## Both pollers -/

/-- A poller before its first call. -/
def Poller.new (errorPolicy : PollingErrorPolicy ε) (start : ℕ) : Poller ε where
  errorPolicy
  state := { start }

/-- A run keeps to the protocol, and so does `until_done` over it. -/
structure Follows (nameOf : A → Option String)
    (poll : Poller ε → ℕ → A → Poller ε × Option (PollingResult ε R M)) (poller : Poller ε)
    (answers : List (ℕ × A)) : Prop where
  protocol : Protocol nameOf .start (polls poll poller answers)
  reachable : untilDone poll poller answers ≠ .unreachable
  returned : ∀ polled ∈ polls poll poller answers, ∀ result,
    polled.result = some (.completed result) → untilDone poll poller answers = .returned result

theorem Protocol.follows {nameOf : A → Option String}
    {poll : Poller ε → ℕ → A → Poller ε × Option (PollingResult ε R M)}
    {poller : Poller ε} {answers : List (ℕ × A)}
    (h : Protocol nameOf .start (polls poll poller answers)) :
    Follows nameOf poll poller answers where
  protocol := h
  reachable := by
    rw [untilDone_eq_outcome]
    exact h.outcome_ne_unreachable
  returned polled hmem result hresult := by
    rw [untilDone_eq_outcome]
    exact h.outcome_returned hmem hresult

namespace Aip151

/-- The name of an answer; a missing one is the empty name. -/
def nameOf : Except (Error ε) (Operation R M) → Option String
  | .ok op => some op.name
  | .error _ => none

theorem leads_handleCommon (call : Call) (op : Operation R M) :
    Leads (ε := ε) (nameOf (ε := ε)) call (.ok op) (handleCommon op) := by
  unfold handleCommon
  split
  · exact .completed _
  · exact .inProgress _ rfl

theorem leads_handleStart (answer : Except (Error ε) (Operation R M)) :
    Leads nameOf .start answer (handleStart answer) := by
  cases answer with
  | error e => exact .completed _
  | ok op => exact leads_handleCommon .start op

theorem leads_handlePoll (policy : PollingErrorPolicy ε) (state : PollingState) (now : ℕ)
    (name : String) (answer : Except (Error ε) (Operation R M)) :
    Leads nameOf (.query name) answer (handlePoll policy state now name answer) := by
  cases answer with
  | error e => exact leads_handlePollingError nameOf _ _ name
  | ok op =>
    have hcommon := leads_handleCommon (ε := ε) (.query name) op
    unfold handlePoll
    dsimp only
    split
    · split
      · exact ‹handleCommon op = _› ▸ hcommon
      · exact .completed _
    · exact ‹handleCommon op = _› ▸ hcommon

end Aip151

namespace Discovery

variable [DiscoveryOperation O]

def nameOf : Except (Error ε) O → Option String
  | .ok o => DiscoveryOperation.name o
  | .error _ => none

/-- An operation in progress has a name. -/
def Named : Except (Error ε) O → Prop
  | .ok o => DiscoveryOperation.done o = false → DiscoveryOperation.name o ≠ none
  | .error _ => True

theorem leads_success (call : Call) {o : O} (hnamed : Named (.ok o : Except (Error ε) O)) :
    Leads (ε := ε) (nameOf (ε := ε)) call (.ok o)
      (if DiscoveryOperation.done o then (none, .completed (.ok o)) else handlePollingSuccess o) := by
  split
  case isTrue hdone => exact .completed _
  case isFalse hdone =>
    obtain ⟨name, hname⟩ := Option.ne_none_iff_exists'.mp (hnamed (by simpa using hdone))
    unfold handlePollingSuccess
    rw [hname]
    exact .inProgress _ hname

theorem leads_handleStart {answer : Except (Error ε) O} (hnamed : Named answer) :
    Leads nameOf .start answer (handleStart answer) := by
  cases answer with
  | error e => exact .completed _
  | ok o => exact leads_success .start hnamed

theorem leads_handlePoll (policy : PollingErrorPolicy ε) (state : PollingState) (now : ℕ)
    (name : String) {answer : Except (Error ε) O} (hnamed : Named answer) :
    Leads nameOf (.query name) answer (handlePoll policy state now name answer) := by
  cases answer with
  | error e => exact leads_handlePollingError nameOf _ _ name
  | ok o => exact leads_success (.query name) hnamed

end Discovery

/-- Every run of the poller of AIP-151 follows the protocol. A run of the discovery poller does when
every answer it receives in progress has a name. -/
theorem pollers_follow_protocol [DiscoveryOperation O] (errorPolicy : PollingErrorPolicy ε)
    (start : ℕ) :
    (∀ answers : List (ℕ × Except (Error ε) (Operation R M)),
      Follows Aip151.nameOf Aip151.poll (.new errorPolicy start) answers) ∧
    ∀ answers : List (ℕ × Except (Error ε) O),
      Admitted Discovery.poll Discovery.Named (.new errorPolicy start) answers →
        Follows Discovery.nameOf Discovery.poll (.new errorPolicy start) answers := by
  constructor
  · intro answers
    have hall : ∀ poller, Admitted Aip151.poll (fun _ => True) poller answers := by
      induction answers with
      | nil => exact fun _ => trivial
      | cons entry answers ih => exact fun poller => ⟨fun _ => trivial, ih _⟩
    have hprotocol : Protocol Aip151.nameOf .start
        (polls Aip151.poll (.new errorPolicy start) answers) :=
      polls_protocol (fun answer _ => Aip151.leads_handleStart answer)
        (fun policy state now name answer _ => Aip151.leads_handlePoll policy state now name answer)
        rfl (hall _)
    exact hprotocol.follows
  · intro answers hadmitted
    have hprotocol : Protocol Discovery.nameOf .start
        (polls Discovery.poll (.new errorPolicy start) answers) :=
      polls_protocol (fun _ hnamed => Discovery.leads_handleStart hnamed)
        (fun policy state now name _ hnamed =>
          Discovery.leads_handlePoll policy state now name hnamed)
        rfl hadmitted
    exact hprotocol.follows

/-- An operation for the runs below. -/
structure Job where
  done : Bool
  name : Option String

instance : DiscoveryOperation Job where
  done := Job.done
  name := Job.name

theorem pollers_follow_protocol_named :
    Follows Discovery.nameOf Discovery.poll (.new (alwaysContinue (ε := Unit)) 0)
      [(0, .ok (Job.mk false (some "j"))), (1, .error (.request ())), (2, .ok ⟨true, none⟩)] :=
  (pollers_follow_protocol (R := Unit) (M := Unit) alwaysContinue 0).2 _
    ⟨by simp [Discovery.Named, DiscoveryOperation.name], by simp [Discovery.Named],
      by simp [Discovery.Named, DiscoveryOperation.done], trivial⟩

/-- An operation in progress without a name ends the polling without a result. -/
theorem unnamed_operation_unreachable :
    untilDone Discovery.poll (.new (alwaysContinue (ε := Unit)) 0)
      [(0, .ok (Job.mk false none)), (1, .ok ⟨true, none⟩)] = .unreachable ∧
    ¬Follows Discovery.nameOf Discovery.poll (.new (alwaysContinue (ε := Unit)) 0)
      [(0, .ok (Job.mk false none)), (1, .ok ⟨true, none⟩)] :=
  ⟨rfl, fun h => h.reachable rfl⟩

end GoogleCloudRust.Lro
