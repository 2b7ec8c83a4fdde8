import GoogleCloudRust.Model.ExactlyOnceRetry
import GoogleCloudRust.Verification.RetryLoop.Deadline

/-! # Every id is reported once

An attempt carries the ids that have not been reported. It reports some of them and leaves the
others for the next attempt, or for the end of the loop. -/

namespace GoogleCloudRust.Subscriber

open Gax

/-! ## What a log says -/

def RetryEvent.reports (id : String) : RetryEvent → Bool
  | rpc _ _ => false
  | confirmed toConfirm => (toConfirm.lookup id).isSome

def reported (log : List RetryEvent) (id : String) : Bool := log.any (RetryEvent.reports id)

/-- The response of the last RPC that carried an id. -/
def lastResponse (id : String) (log : List RetryEvent) : Option (Except Error Unit) :=
  log.foldl (fun last event =>
    match event with
    | .rpc ids response => if ids.contains id then some response else last
    | .confirmed _ => last) none

/-- The kind of a failure is how its text begins. -/
def IsKind (kind value : String) : Prop := kind.toList <+: value.toList

/-- An `ErrorInfo` among the details of the status has an entry for the id, with a failure of the
kind. -/
def Lists (kind : String) (e : Error) (id : String) : Prop :=
  ∃ status metadata value, e.status = some status ∧ .errorInfo metadata ∈ status.details ∧
    (id, value) ∈ metadata ∧ IsKind kind value

/-- The server says that the id failed. -/
def Fails (e : Error) (id : String) : Prop :=
  Lists "TRANSIENT_FAILURE_" e id ∨ Lists "PERMANENT_FAILURE_" e id

/-- The RPC succeeded, or the server says which ids failed, and this one is not among them. -/
def Acknowledges (id : String) : Except Error Unit → Prop
  | .ok _ => True
  | .error e => (∃ other, Fails e other) ∧ ¬ Fails e id

structure Sound (ackIds : List String) (log : List RetryEvent) : Prop where
  carries : ∀ index ids response, log[index]? = some (.rpc ids response) →
    ids = ackIds.filter fun id => !reported (log.take index) id
  once : ∀ id, log.countP (RetryEvent.reports id) ≤ 1
  known : ∀ id, reported log id = true → id ∈ ackIds
  ok : ∀ toConfirm, .confirmed toConfirm ∈ log → ∀ id, toConfirm.lookup id = some (.ok ()) →
    ∃ response, lastResponse id log = some response ∧ Acknowledges id response

variable {ackIds ids remaining : List String} {log : List RetryEvent} {toConfirm : ConfirmedAcks}
  {response : Except Error Unit}

theorem reported_append_rpc (id : String) :
    reported (log ++ [.rpc ids response]) id = reported log id := by
  simp [reported, RetryEvent.reports]

theorem reported_append_confirmed (id : String) :
    reported (log ++ [.confirmed toConfirm]) id =
      (reported log id || (toConfirm.lookup id).isSome) := by
  simp [reported, RetryEvent.reports]

theorem lastResponse_append_rpc (id : String) :
    lastResponse id (log ++ [.rpc ids response]) =
      if ids.contains id then some response else lastResponse id log := by
  rw [lastResponse, List.foldl_append]
  rfl

theorem lastResponse_append_confirmed (id : String) :
    lastResponse id (log ++ [.confirmed toConfirm]) = lastResponse id log := by
  rw [lastResponse, List.foldl_append]
  rfl

/-- The events before an added one stay as they are. -/
theorem carries_append {event : RetryEvent}
    (h : ∀ index ids response, log[index]? = some (.rpc ids response) →
      ids = ackIds.filter fun id => !reported (log.take index) id)
    (hevent : ∀ ids response, event = .rpc ids response →
      ids = ackIds.filter fun id => !reported log id) :
    ∀ index ids response, (log ++ [event])[index]? = some (.rpc ids response) →
      ids = ackIds.filter fun id => !reported ((log ++ [event]).take index) id := by
  intro index ids response hindex
  by_cases hlt : index < log.length
  · rw [List.getElem?_append_left hlt] at hindex
    rw [List.take_append_of_le_length hlt.le]
    exact h index ids response hindex
  · rw [List.getElem?_append_right (Nat.le_of_not_lt hlt)] at hindex
    obtain ⟨hzero, hlast⟩ := List.getElem?_eq_some_iff.mp hindex
    have hlength : index = log.length := by
      simp only [List.length_singleton] at hzero
      omega
    subst hlength
    rw [List.take_left]
    exact hevent ids response (by simpa using hlast)

theorem Sound.append_rpc (h : Sound ackIds log) (hids : ids = ackIds.filter fun id => !reported log id)
    (response : Except Error Unit) : Sound ackIds (log ++ [.rpc ids response]) where
  carries := by
    refine carries_append h.carries ?_
    intro ids' response' heq
    cases heq
    exact hids
  once := by
    intro id
    simpa [RetryEvent.reports] using h.once id
  known := by
    intro id hid
    rw [reported_append_rpc] at hid
    exact h.known id hid
  ok := by
    intro toConfirm hmem id hlookup
    have hconfirmed : .confirmed toConfirm ∈ log := by simpa using hmem
    obtain ⟨last, hlast, hack⟩ := h.ok toConfirm hconfirmed id hlookup
    -- A reported id is not carried again.
    have hreported : reported log id = true :=
      List.any_eq_true.mpr ⟨_, hconfirmed, by simp [RetryEvent.reports, hlookup]⟩
    have hnot : ids.contains id = false := by simp [hids, hreported]
    refine ⟨last, ?_, hack⟩
    rw [lastResponse_append_rpc, hnot]
    exact hlast

theorem Sound.append_confirmed (h : Sound ackIds log)
    (hkeys : ∀ id, (toConfirm.lookup id).isSome = true → id ∈ ackIds ∧ reported log id = false)
    (hok : ∀ id, toConfirm.lookup id = some (.ok ()) →
      ∃ response, lastResponse id log = some response ∧ Acknowledges id response) :
    Sound ackIds (log ++ [.confirmed toConfirm]) where
  carries := carries_append h.carries (by simp)
  once := by
    intro id
    rw [List.countP_append, List.countP_singleton]
    split_ifs with hreports
    · have hnone : log.countP (RetryEvent.reports id) = 0 := by
        rw [List.countP_eq_zero]
        have hnot := (hkeys id hreports).2
        simpa [reported] using hnot
      omega
    · exact h.once id
  known := by
    intro id hid
    rw [reported_append_confirmed, Bool.or_eq_true] at hid
    exact hid.elim (h.known id) fun hnew => (hkeys id hnew).1
  ok := by
    intro confirmed hmem id hlookup
    rw [lastResponse_append_confirmed]
    obtain hold | hnew := List.mem_append.mp hmem
    · exact h.ok confirmed hold id hlookup
    · cases List.mem_singleton.mp hnew
      exact hok id hlookup

/-! ## Failures of single ids -/

theorem startsWith_iff {kind value : String} : value.startsWith kind = true ↔ IsKind kind value :=
  String.startsWith_string_iff

/-- The kinds exclude each other. -/
theorem IsKind.not_permanent {value : String} (h : IsKind "TRANSIENT_FAILURE_" value) :
    ¬IsKind "PERMANENT_FAILURE_" value := by
  intro hpermanent
  have hprefix := List.prefix_or_prefix_of_prefix h hpermanent
  revert hprefix
  decide

theorem mem_noteFailure (failures : List String × List String) (entry : String × String)
    (id : String) :
    (id ∈ (noteFailure failures entry).1 ↔
        id ∈ failures.1 ∨ id = entry.1 ∧ IsKind "TRANSIENT_FAILURE_" entry.2) ∧
      (id ∈ (noteFailure failures entry).2 ↔
        id ∈ failures.2 ∨ id = entry.1 ∧ IsKind "PERMANENT_FAILURE_" entry.2) := by
  obtain ⟨k, v⟩ := entry
  simp only [noteFailure]
  split_ifs with htransient hpermanent
  · rw [startsWith_iff] at htransient
    simp [htransient, htransient.not_permanent, or_comm]
  · rw [startsWith_iff] at htransient hpermanent
    simp [htransient, hpermanent, or_comm]
  · rw [startsWith_iff] at htransient hpermanent
    simp [htransient, hpermanent]

theorem mem_foldl_noteFailure (metadata : List (String × String))
    (failures : List String × List String) (id : String) :
    (id ∈ (metadata.foldl noteFailure failures).1 ↔ id ∈ failures.1 ∨
        ∃ value, (id, value) ∈ metadata ∧ IsKind "TRANSIENT_FAILURE_" value) ∧
      (id ∈ (metadata.foldl noteFailure failures).2 ↔ id ∈ failures.2 ∨
        ∃ value, (id, value) ∈ metadata ∧ IsKind "PERMANENT_FAILURE_" value) := by
  induction metadata generalizing failures with
  | nil => simp
  | cons entry metadata ih =>
      obtain ⟨htransient, hpermanent⟩ := ih (noteFailure failures entry)
      obtain ⟨hfirst, hsecond⟩ := mem_noteFailure failures entry id
      obtain ⟨k, v⟩ := entry
      rw [List.foldl_cons, htransient, hpermanent, hfirst, hsecond]
      simp only [List.mem_cons, Prod.mk.injEq, or_and_right, exists_or, or_assoc, and_assoc,
        exists_and_left, exists_eq_left, and_self]

theorem mem_foldl_noteDetail (details : List StatusDetails) (failures : List String × List String)
    (id : String) :
    (id ∈ (details.foldl noteDetail failures).1 ↔ id ∈ failures.1 ∨
        ∃ metadata value, .errorInfo metadata ∈ details ∧ (id, value) ∈ metadata ∧
          IsKind "TRANSIENT_FAILURE_" value) ∧
      (id ∈ (details.foldl noteDetail failures).2 ↔ id ∈ failures.2 ∨
        ∃ metadata value, .errorInfo metadata ∈ details ∧ (id, value) ∈ metadata ∧
          IsKind "PERMANENT_FAILURE_" value) := by
  induction details generalizing failures with
  | nil => simp
  | cons detail details ih =>
      obtain ⟨htransient, hpermanent⟩ := ih (noteDetail failures detail)
      rw [List.foldl_cons, htransient, hpermanent]
      cases detail with
      | other => simp [noteDetail]
      | errorInfo metadata =>
          obtain ⟨hfirst, hsecond⟩ := mem_foldl_noteFailure metadata failures id
          rw [noteDetail, hfirst, hsecond]
          simp only [List.mem_cons, StatusDetails.errorInfo.injEq, or_and_right, exists_or,
            or_assoc, exists_and_left, exists_eq_left, and_self]

theorem mem_extractFailures (e : Error) (id : String) :
    (id ∈ (extractFailures e).1 ↔ Lists "TRANSIENT_FAILURE_" e id) ∧
      (id ∈ (extractFailures e).2 ↔ Lists "PERMANENT_FAILURE_" e id) := by
  unfold extractFailures Lists
  cases hstatus : e.status with
  | none => simp
  | some status =>
      obtain ⟨htransient, hpermanent⟩ := mem_foldl_noteDetail status.details ([], []) id
      simp only [htransient, hpermanent, List.not_mem_nil, false_or, Option.some.injEq,
        exists_and_left, exists_eq_left', and_self]

theorem fails_iff (e : Error) (id : String) :
    Fails e id ↔ id ∈ (extractFailures e).1 ∨ id ∈ (extractFailures e).2 := by
  obtain ⟨htransient, hpermanent⟩ := mem_extractFailures e id
  rw [Fails, htransient, hpermanent]

/-- Without failures of single ids all ids share the error. -/
theorem exists_fails_iff (e : Error) :
    (∃ id, Fails e id) ↔
      ((extractFailures e).1.isEmpty && (extractFailures e).2.isEmpty) = false := by
  simp only [fails_iff, exists_or, Bool.and_eq_false_iff, List.isEmpty_eq_false_iff_exists_mem]

/-! ## Attempts -/

/-- What an attempt reports, and what it leaves. -/
structure Outcome (ids : List String) (response : Except Error Unit) (toConfirm : ConfirmedAcks)
    (remaining : List String) : Prop where
  remaining : remaining = ids.filter fun id => !(toConfirm.lookup id).isSome
  keys : ∀ id, (toConfirm.lookup id).isSome = true → id ∈ ids
  ok : ∀ id, toConfirm.lookup id = some (.ok ()) → Acknowledges id response

theorem lookup_ofKeys_toFinset (ids : List String) (result : AckResult) (id : String) :
    (HashMap.ofKeys ids.toFinset fun _ => result : ConfirmedAcks).lookup id =
      if id ∈ ids then some result else none := by
  split_ifs with hid
  · exact (HashMap.lookup_ofKeys _ _ _ _).mpr ⟨List.mem_toFinset.mpr hid, rfl⟩
  · rw [Option.eq_none_iff_forall_not_mem]
    intro found hfound
    exact hid (List.mem_toFinset.mp ((HashMap.lookup_ofKeys _ _ _ _).mp hfound).1)

/-- All ids get the same result. -/
theorem Outcome.ofKeys (ids : List String) (result : AckResult)
    (hok : result = .ok () → ∀ id, Acknowledges id response) :
    Outcome ids response (.ofKeys ids.toFinset fun _ => result) [] where
  remaining := by
    symm
    rw [List.filter_eq_nil_iff]
    intro id hid
    simp [lookup_ofKeys_toFinset, hid]
  keys := by
    intro id hid
    by_contra hnot
    simp [lookup_ofKeys_toFinset, hnot] at hid
  ok := by
    intro id hlookup
    rw [lookup_ofKeys_toFinset] at hlookup
    split_ifs at hlookup with hid
    exact hok (Option.some.inj hlookup) id

/-- What an id without a transient failure is reported with. -/
def idResult (permanentFailures : List String) (sharedErr : Error) (id : String) : AckResult :=
  if permanentFailures.contains id then .error (.rpc sharedErr) else .ok ()

theorem processIds_spec (transientFailures permanentFailures : List String) (sharedErr : Error)
    (ids : List String) (toConfirm : ConfirmedAcks) (transient : List String) :
    (processIds transientFailures permanentFailures sharedErr ids (toConfirm, transient)).2 =
        transient ++ ids.filter (· ∈ transientFailures) ∧
      ∀ id, (processIds transientFailures permanentFailures sharedErr ids
          (toConfirm, transient)).1.lookup id =
        if id ∈ ids ∧ id ∉ transientFailures then some (idResult permanentFailures sharedErr id)
        else toConfirm.lookup id := by
  induction ids generalizing toConfirm transient with
  | nil => simp [processIds]
  | cons first ids ih =>
      rw [processIds]
      by_cases htransient : first ∈ transientFailures
      · obtain ⟨hremaining, hlookup⟩ := ih toConfirm (transient ++ [first])
        rw [if_pos (List.contains_iff_mem.mpr htransient)]
        refine ⟨by rw [hremaining]; simp [htransient], ?_⟩
        intro id
        rw [hlookup]
        by_cases hid : id = first
        · simp [hid, htransient]
        · simp [hid]
      · have hstep : (if permanentFailures.contains first then
            (toConfirm.insert first (.error (.rpc sharedErr)), transient)
            else (toConfirm.insert first (.ok ()), transient)) =
            (toConfirm.insert first (idResult permanentFailures sharedErr first), transient) := by
          unfold idResult
          split_ifs <;> rfl
        obtain ⟨hremaining, hlookup⟩ :=
          ih (toConfirm.insert first (idResult permanentFailures sharedErr first)) transient
        rw [if_neg (mt List.contains_iff_mem.mp htransient), hstep]
        refine ⟨by rw [hremaining]; simp [htransient], ?_⟩
        intro id
        rw [hlookup, HashMap.lookup_insert_eq]
        by_cases hid : id = first
        · simp [hid, htransient]
        · simp [hid]

theorem processAttemptError_outcome (ids : List String) (e : Error) :
    Outcome ids (.error e) (processAttemptError ids e).1 (processAttemptError ids e).2 := by
  unfold processAttemptError
  simp only
  split_ifs with hempty htransient
  · exact ⟨by simp, by simp, by simp⟩
  · exact .ofKeys ids _ (by simp)
  · obtain ⟨hremaining, hlookup⟩ :=
      processIds_spec (extractFailures e).1 (extractFailures e).2 e ids ∅ []
    have hfailures : ∃ other, Fails e other :=
      (exists_fails_iff e).mpr (Bool.eq_false_iff.mpr hempty)
    refine ⟨?_, ?_, ?_⟩
    · rw [hremaining, List.nil_append]
      refine List.filter_congr ?_
      intro id hid
      rw [hlookup]
      by_cases htransient : id ∈ (extractFailures e).1
      · simp [htransient]
      · simp [htransient, hid]
    · intro id hsome
      rw [hlookup] at hsome
      split_ifs at hsome with hid
      · exact hid.1
      · simp at hsome
    · intro id hok
      rw [hlookup] at hok
      split_ifs at hok with hid
      · refine ⟨hfailures, ?_⟩
        rw [fails_iff]
        rintro (htransient | hpermanent)
        · exact hid.2 htransient
        · simp [idResult, hpermanent] at hok
      · simp at hok

/-- The ids that remain are those that have not been reported. -/
structure RemainingInv (ackIds : List String) (state : ExactlyOnceState) : Prop where
  sound : Sound ackIds state.log
  remaining : state.remainingIds = ackIds.filter fun id => !reported state.log id

variable {state : ExactlyOnceState}

theorem RemainingInv.confirm (hsound : Sound ackIds log)
    (hids : ids = ackIds.filter fun id => !reported log id)
    (houtcome : Outcome ids response toConfirm remaining)
    (hlog : state.log = log ++ [.rpc ids response]) (hremaining : state.remainingIds = remaining) :
    RemainingInv ackIds (state.confirm toConfirm) := by
  have hrpc := hsound.append_rpc hids response
  unfold ExactlyOnceState.confirm
  split_ifs with hsize
  · refine ⟨hlog ▸ hrpc, ?_⟩
    simp only [hremaining, houtcome.remaining, HashMap.lookup_of_size_eq_zero hsize, hlog,
      reported_append_rpc, hids]
    simp
  · simp only [hlog]
    constructor
    · refine hrpc.append_confirmed ?_ ?_
      · intro id hid
        have hmem := houtcome.keys id hid
        simp only [hids, List.mem_filter, Bool.not_eq_true'] at hmem
        rw [reported_append_rpc]
        exact hmem
      · intro id hok
        have hmem := houtcome.keys id (by simp [hok])
        refine ⟨response, ?_, houtcome.ok id hok⟩
        rw [lastResponse_append_rpc, if_pos (List.contains_iff_mem.mpr hmem)]
    · rw [hremaining, houtcome.remaining, hids, List.filter_filter]
      refine List.filter_congr ?_
      intro id _
      rw [reported_append_confirmed, reported_append_rpc, Bool.not_or, Bool.and_comm]

theorem confirm_frame (state : ExactlyOnceState) (toConfirm : ConfirmedAcks) :
    (state.confirm toConfirm).remainingIds = state.remainingIds ∧
      (state.confirm toConfirm).lastError = state.lastError := by
  unfold ExactlyOnceState.confirm
  split_ifs with hsize
  · exact ⟨rfl, rfl⟩
  · exact ⟨rfl, rfl⟩

theorem attempt_spec (h : RemainingInv ackIds state)
    (inner : ℕ → List String → Except Error Unit × ℕ) {result : Except Error Unit} {duration : ℕ}
    {next : ExactlyOnceState} (hattempt : state.attempt inner = (result, duration, next)) :
    RemainingInv ackIds next ∧ (next.remainingIds = [] ∨ next.lastError.isSome = true) ∧
      ((∃ e, result = .error e) → next.lastError.isSome = true) := by
  unfold ExactlyOnceState.attempt at hattempt
  cases hinner : inner state.log.length state.remainingIds with
  | mk response time =>
      simp only [hinner] at hattempt
      cases response with
      | ok value =>
          obtain ⟨rfl, rfl, rfl⟩ := by simpa using hattempt
          have houtcome : Outcome state.remainingIds (.ok value)
              (.ofKeys state.remainingIds.toFinset fun _ => .ok ()) [] :=
            .ofKeys _ _ fun _ _ => trivial
          refine ⟨.confirm h.sound h.remaining houtcome rfl rfl, .inl ?_, by simp⟩
          exact (confirm_frame _ _).1
      | error e =>
          have houtcome := processAttemptError_outcome state.remainingIds e
          simp only at hattempt
          split_ifs at hattempt with hempty
          · obtain ⟨rfl, rfl, rfl⟩ := by simpa using hattempt
            rw [List.isEmpty_iff] at hempty
            rw [hempty] at houtcome
            refine ⟨.confirm h.sound h.remaining houtcome rfl rfl, .inl ?_, by simp⟩
            exact (confirm_frame _ _).1
          · obtain ⟨rfl, rfl, rfl⟩ := by simpa using hattempt
            have hlast := (confirm_frame { state with
              remainingIds := (processAttemptError state.remainingIds e).2
              lastError := some e
              log := state.log ++ [.rpc state.remainingIds (.error e)] }
              (processAttemptError state.remainingIds e).1).2
            refine ⟨.confirm h.sound h.remaining houtcome rfl rfl, .inr ?_, fun _ => ?_⟩
            · simp [hlast]
            · simp [hlast]

/-! ## The loop -/

section Loop

variable {τ : Type} {loop : RetryLoop ExactlyOnceState τ Unit} {s s' : LoopState ExactlyOnceState τ}
  {ended : Option (Except Error Unit)} {inner : ℕ → List String → Except Error Unit × ℕ}

/-- When the loop goes on there is an error for the ids that remain. -/
structure AttemptsInv (ackIds : List String) (s : LoopState ExactlyOnceState τ) : Prop where
  remaining : RemainingInv ackIds s.inner
  lastError : s.attempt ≠ .initial → s.inner.lastError.isSome = true

/-- When the loop ends there is one as well. -/
def Ended (ackIds : List String) (state : ExactlyOnceState) : Prop :=
  RemainingInv ackIds state ∧ (state.remainingIds = [] ∨ state.lastError.isSome = true)

theorem attempted_attempts {call : Call} (hloop : loop.inner = fun state _ _ => state.attempt inner)
    (h : RetryLoop.Attempted loop s call s' ended) (hinv : RemainingInv ackIds s.inner) :
    (ended = none → AttemptsInv ackIds s') ∧ (ended ≠ none → Ended ackIds s'.inner) := by
  cases h with
  | succeeded r duration next hinner =>
      rw [hloop] at hinner
      obtain ⟨hnext, hends, -⟩ := attempt_spec hinv inner hinner
      exact ⟨by simp, fun _ => ⟨hnext, hends⟩⟩
  | stopped error e duration next flow hinner hflow hstop =>
      rw [hloop] at hinner
      obtain ⟨hnext, hends, -⟩ := attempt_spec hinv inner hinner
      exact ⟨by simp, fun _ => ⟨hnext, hends⟩⟩
  | continued error e duration next hinner hflow =>
      rw [hloop] at hinner
      obtain ⟨hnext, -, hlast⟩ := attempt_spec hinv inner hinner
      exact ⟨fun _ => ⟨hnext, fun _ => hlast ⟨error, rfl⟩⟩, by simp⟩

theorem round_attempts (hloop : loop.inner = fun state _ _ => state.attempt inner)
    (h : RetryLoop.Round loop s s' ended) (hinv : AttemptsInv ackIds s) :
    (ended = none → AttemptsInv ackIds s') ∧ (ended ≠ none → Ended ackIds s'.inner) := by
  cases h with
  | first hattempt h => exact attempted_attempts hloop h hinv.remaining
  | late count delay remaining prevError hattempt hremaining =>
      exact ⟨by simp, fun _ => ⟨hinv.remaining, .inr (hinv.lastError (by simp [hattempt]))⟩⟩
  | throttledOut count delay prevError e throttler hattempt hthrottle hpolicy =>
      exact ⟨by simp, fun _ => ⟨hinv.remaining, .inr (hinv.lastError (by simp [hattempt]))⟩⟩
  | throttled count delay prevError e throttler hattempt hthrottle hpolicy =>
      exact ⟨fun _ => ⟨hinv.remaining, fun _ => hinv.lastError (by simp [hattempt])⟩, by simp⟩
  | retried count delay prevError throttler hattempt hthrottle h =>
      exact attempted_attempts hloop h hinv.remaining

theorem endsIn_ended (hloop : loop.inner = fun state _ _ => state.attempt inner)
    {final : LoopState ExactlyOnceState τ} {value : Except Error Unit} {throttler : τ}
    (hends : Loop.EndsIn loop.step (loop.initial { remainingIds := ackIds } throttler) final value) :
    Ended ackIds final.inner := by
  have hround : ∀ s s' ended, AttemptsInv ackIds s → loop.step s = (s', ended) →
      (ended = none → AttemptsInv ackIds s') ∧ (ended ≠ none → Ended ackIds s'.inner) := by
    intro s s' ended hs hstep
    have hround := loop.step_round s
    rw [hstep] at hround
    exact round_attempts hloop hround hs
  refine Loop.endsIn_result (AttemptsInv ackIds) (fun s _ => Ended ackIds s.inner) ?_ ?_ ?_ hends
  · exact fun s s' hs hstep => (hround s s' none hs hstep).1 rfl
  · exact fun s s' value hs hstep => (hround s s' (some value) hs hstep).2 (by simp)
  · refine ⟨⟨⟨by simp [RetryLoop.initial], by simp [RetryLoop.initial], ?_, ?_⟩, ?_⟩, ?_⟩
    · simp [RetryLoop.initial, reported]
    · simp [RetryLoop.initial]
    · simp [RetryLoop.initial, reported]
    · simp [RetryLoop.initial]

end Loop

/-- Each attempt carries what has not been reported, each id is reported once, and only those
that have been acknowledged are reported as such. -/
structure Reports (ackIds : List String) (log : List RetryEvent) : Prop extends Sound ackIds log where
  all : ∀ id ∈ ackIds, log.countP (RetryEvent.reports id) = 1

theorem Sound.reports (h : Sound ackIds log) (hall : ∀ id ∈ ackIds, reported log id = true) :
    Reports ackIds log := by
  refine ⟨h, ?_⟩
  intro id hid
  have hpos : 0 < log.countP (RetryEvent.reports id) := by
    rw [List.countP_pos_iff]
    exact List.any_eq_true.mp (hall id hid)
  exact le_antisymm (h.once id) hpos

theorem Ended.reports (h : Ended ackIds state) : Reports ackIds state.reportRemaining.log := by
  obtain ⟨hinv, hends⟩ := h
  have hall : ∀ id ∈ ackIds, id ∉ state.remainingIds → reported state.log id = true := by
    intro id hid hnot
    by_contra hreported
    exact hnot (by simp [hinv.remaining, hid, hreported])
  unfold ExactlyOnceState.reportRemaining
  split_ifs with hempty
  · rw [List.isEmpty_iff] at hempty
    exact hinv.sound.reports fun id hid => hall id hid (by simp [hempty])
  · obtain hnone | hsome := hends
    · simp [hnone] at hempty
    · obtain ⟨sharedErr, hlast⟩ := Option.isSome_iff_exists.mp hsome
      simp only [hlast]
      refine (hinv.sound.append_confirmed ?_ ?_).reports ?_
      · intro id hid
        by_cases hmem : id ∈ state.remainingIds
        · simpa [hinv.remaining] using hmem
        · simp [lookup_ofKeys_toFinset, hmem] at hid
      · intro id hok
        rw [lookup_ofKeys_toFinset] at hok
        split_ifs at hok
        cases hok
      · intro id hid
        rw [reported_append_confirmed, lookup_ofKeys_toFinset]
        by_cases hmem : id ∈ state.remainingIds
        · simp [hmem]
        · simp [hall id hid hmem]

theorem exactlyOnceRetryLoop_reports {τ : Type} (ackIds : List String)
    (inner : ℕ → List String → Except Error Unit × ℕ) (sleep : ℕ → ℕ → ℕ)
    (retryThrottler : RetryThrottler τ) (retryPolicy : ℕ → RetryPolicy)
    (backoff : ℕ → RetryState → ℕ) (start rounds : ℕ) (throttler : τ) (log : List RetryEvent)
    (hlog : exactlyOnceRetryLoop ackIds inner sleep retryThrottler retryPolicy backoff start rounds
      throttler = some log) : Reports ackIds log := by
  unfold exactlyOnceRetryLoop at hlog
  simp only at hlog
  split at hlog
  · rename_i final value hrun
    cases hlog
    exact (endsIn_ended rfl ⟨rounds, hrun⟩).reports
  · cases hlog

/-- Of two ids one fails at first, and is acknowledged in a second attempt. -/
theorem exactlyOnceRetryLoop_reports_two :
    let e : Error := .service { status := {
      code := .failedPrecondition
      details := [.errorInfo [("one", "TRANSIENT_FAILURE_UNORDERED_ACK_ID")]] } }
    ∃ log, exactlyOnceRetryLoop ["one", "two"]
        (fun call _ => if call = 0 then (.error e, 1) else (.ok (), 1)) (fun _ delay => delay)
        CircuitBreaker.retryThrottler (fun _ => alwaysRetry) (fun _ _ => 1) 0 2 (.clamp 100 50 10) =
        some log ∧ Reports ["one", "two"] log := by
  intro e
  have hsome : (exactlyOnceRetryLoop ["one", "two"]
      (fun call _ => if call = 0 then (.error e, 1) else (.ok (), 1)) (fun _ delay => delay)
      CircuitBreaker.retryThrottler (fun _ => alwaysRetry) (fun _ _ => 1) 0 2
      (.clamp 100 50 10)).isSome = true := by
    decide +kernel
  obtain ⟨log, hlog⟩ := Option.isSome_iff_exists.mp hsome
  exact ⟨log, hlog, exactlyOnceRetryLoop_reports _ _ _ _ _ _ _ _ _ _ hlog⟩

end GoogleCloudRust.Subscriber
