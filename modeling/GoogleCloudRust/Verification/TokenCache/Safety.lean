import Mathlib.Data.Nat.Basic
import GoogleCloudRust.Library.Interleaving
import GoogleCloudRust.Model.TokenCache

/-! # Safety of the token cache

The invariant has a part for each side of the channel. The task leaves a value behind that needs no
refresh, unless nobody is left to read it. A call that waits has seen a value that does. -/

namespace GoogleCloudRust.TokenCache

variable {system : System} {value : Published}

/-- A token that does not expire is in the channel. -/
def Forever (current : Option Published) : Prop :=
  ∃ token tag, current = some (.ok (token, tag)) ∧ token.expiresAt = none

/-- A value that no caller waits upon. -/
def Final (current : Option Published) : Prop :=
  Forever current ∨ ∃ error, current = some (.error error)

/-- What is in the channel, by where the task stands. -/
def TaskSound (system : System) : RefreshTask → Prop
  | .sent none => system.caches = 0 ∨ Forever system.current
  | .permanentUntil _ deadline => system.currentExpiration = some deadline
  | .transientUntil _ deadline _ => system.currentExpiration = some deadline
  | .ended => system.caches = 0 ∨ Final system.current
  | _ => ¬Forever system.current

/-- What a call has seen. -/
def StageSound (system : System) : Stage → Prop
  | .read value seen => seen ≤ system.version ∧ value = (system.published.take seen).getLast?
  | .waiting seen => seen ≤ system.version ∧ (seen = system.version → ¬Final system.current)
  | .changed seen => seen < system.version
  | .panicked => False
  | _ => True

/-- The entity tag of a value. -/
def tagOf : Published → Option EntityTag
  | .ok (_, tag) => some tag
  | .error _ => none

/-- Every entity tag is sent once. -/
structure TagsSound (system : System) : Prop where
  below : ∀ value ∈ system.published, ∀ tag, tagOf value = some tag → tag.value < system.generator
  nodup : (system.published.filterMap tagOf).Nodup
  publishing : ∀ token tag, system.task = .publishing token tag →
    tag.value < system.generator ∧ tag ∉ system.published.filterMap tagOf

structure Sound (system : System) : Prop where
  task : TaskSound system system.task
  stage : ∀ call ∈ system.calls, StageSound system call.stage
  live : ∀ call ∈ system.calls, call.stage.inFlight → 0 < system.caches
  tags : TagsSound system

theorem not_forever_of_currentExpiration {deadline : ℕ}
    (h : system.currentExpiration = some deadline) : ¬Forever system.current := by
  rintro ⟨token, tag, hcurrent, hnone⟩
  simp [System.currentExpiration, hcurrent, hnone] at h

/-- Until the task is about to end, the value in the channel is not one that stays. -/
theorem not_forever {task : RefreshTask} (h : TaskSound system task) (hsent : task ≠ .sent none)
    (hended : task ≠ .ended) : ¬Forever system.current := by
  cases task with
  | sent expiresAt =>
    cases expiresAt with
    | none => exact absurd rfl hsent
    | some expiry => exact h
  | permanentUntil error deadline => exact not_forever_of_currentExpiration h
  | transientUntil error deadline short => exact not_forever_of_currentExpiration h
  | ended => exact absurd rfl hended
  | _ => exact h

/-! ## Sending -/

theorem caches_eq_zero (h : system.receiverCount = 0) : system.caches = 0 := by
  unfold System.receiverCount at h
  omega

@[simp] theorem send_calls : (system.send value).calls = system.calls := by
  unfold System.send
  split <;> rfl

@[simp] theorem send_caches : (system.send value).caches = system.caches := by
  unfold System.send
  split <;> rfl

@[simp] theorem send_generator : (system.send value).generator = system.generator := by
  unfold System.send
  split <;> rfl

theorem send_published (h : system.receiverCount ≠ 0) :
    (system.send value).published = system.published ++ [value] := by
  rw [System.send, if_neg h]

theorem send_eq_self (h : system.receiverCount = 0) : system.send value = system := by
  rw [System.send, if_pos h]

/-- A value that is sent leaves the calls that wait with something to read. -/
theorem stageSound_append {stage : Stage} (h : StageSound system stage) {next : System}
    (hpublished : next.published = system.published ++ [value]) : StageSound next stage := by
  have hversion : next.version = system.version + 1 := by
    simp [System.version, hpublished]
  cases stage with
  | called => trivial
  | read read seen =>
    have hle := h.1
    refine ⟨by omega, ?_⟩
    rw [h.2, hpublished, List.take_append_of_le_length h.1]
  | waiting seen =>
    have hle := h.1
    exact ⟨by omega, fun heq => by omega⟩
  | changed seen =>
    have hlt : seen < system.version := h
    exact show seen < next.version by omega
  | returned version answer => trivial
  | panicked => exact h
  | cancelled => trivial

theorem stageSound_congr {stage : Stage} (h : StageSound system stage) {next : System}
    (hpublished : next.published = system.published) : StageSound next stage := by
  have hversion : next.version = system.version := by simp [System.version, hpublished]
  have hcurrent : next.current = system.current := by simp [System.current, hpublished]
  cases stage with
  | called => trivial
  | read read seen => exact ⟨hversion ▸ h.1, by rw [hpublished]; exact h.2⟩
  | waiting seen => exact ⟨hversion ▸ h.1, by rw [hversion, hcurrent]; exact h.2⟩
  | changed seen => exact show seen < next.version from hversion ▸ h
  | returned version answer => trivial
  | panicked => exact h
  | cancelled => trivial

/-! ## The task -/

/-- The task moves on and sends nothing. -/
theorem Sound.move (h : Sound system) {task : RefreshTask} (htask : TaskSound system task)
    (hpublishing : ∀ token tag, task ≠ .publishing token tag) :
    Sound { system with task } where
  task := by
    cases task with
    | sent expiresAt => cases expiresAt <;> exact htask
    | _ => exact htask
  stage call hmem := stageSound_congr (h.stage call hmem) rfl
  live := h.live
  tags := ⟨h.tags.below, h.tags.nodup, fun token tag heq => absurd heq (hpublishing token tag)⟩

theorem TagsSound.append (h : TagsSound system) {next : System}
    (hpublished : next.published = system.published ++ [value])
    (hgenerator : next.generator = system.generator)
    (hfresh : ∀ tag, tagOf value = some tag →
      tag.value < system.generator ∧ tag ∉ system.published.filterMap tagOf)
    (hpublishing : ∀ token tag, next.task ≠ .publishing token tag) : TagsSound next where
  below value' hmem tag htag := by
    rw [hpublished, List.mem_append, List.mem_singleton] at hmem
    rw [hgenerator]
    rcases hmem with hmem | rfl
    · exact h.below value' hmem tag htag
    · exact (hfresh tag htag).1
  nodup := by
    rw [hpublished, List.filterMap_append]
    cases htag : tagOf value with
    | none => simpa [htag] using h.nodup
    | some tag =>
      have hnew := (hfresh tag htag).2
      rw [List.nodup_append]
      refine ⟨h.nodup, by simp [htag], ?_⟩
      rintro tag' hmem _ hlast rfl
      simp only [List.filterMap_cons, htag, List.filterMap_nil, List.mem_singleton] at hlast
      exact hnew (hlast ▸ hmem)
  publishing token tag heq := absurd heq (hpublishing token tag)

/-- The task sends a value and moves on. Without receivers the value is not stored. -/
theorem Sound.sends (h : Sound system) {task : RefreshTask}
    (hidle : system.caches = 0 → TaskSound system task)
    (hsent : ∀ next : System, next.current = some value → TaskSound next task)
    (hfresh : ∀ tag, tagOf value = some tag →
      tag.value < system.generator ∧ tag ∉ system.published.filterMap tagOf)
    (hpublishing : ∀ token tag, task ≠ .publishing token tag) :
    Sound { system.send value with task } := by
  by_cases hcount : system.receiverCount = 0
  · rw [send_eq_self hcount]
    exact h.move (hidle (caches_eq_zero hcount)) hpublishing
  · have hpublished : (system.send value).published = system.published ++ [value] :=
      send_published hcount
    constructor
    · refine hsent _ ?_
      simp [System.current, hpublished]
    · intro call hmem
      exact stageSound_append (h.stage call (by simpa using hmem)) hpublished
    · simpa using h.live
    · exact h.tags.append hpublished send_generator hfresh hpublishing

theorem not_forever_error {error : CredentialsError} {current : Option Published}
    (h : current = some (.error error)) : ¬Forever current := by
  rintro ⟨token, tag, hcurrent, -⟩
  rw [h] at hcurrent
  cases hcurrent

theorem sound_taskStep (h : Sound system) (answer : Except CredentialsError Token) :
    Sound (system.taskStep answer) := by
  have htask := h.task
  have hstays := not_forever htask
  unfold System.taskStep
  split
  case h_1 hchecking =>
    rw [hchecking] at hstays
    split
    · exact h.move (.inl (caches_eq_zero ‹_›)) (by simp)
    · exact h.move (hstays (by simp) (by simp)) (by simp)
  case h_2 hfetching =>
    rw [hfetching] at hstays
    cases answer with
    | ok token =>
      refine ⟨hstays (by simp) (by simp), fun call hmem => ?_, h.live, ?_, h.tags.nodup, ?_⟩
      · exact stageSound_congr (h.stage call hmem) rfl
      · intro value hmem tag htag
        exact Nat.lt_succ_of_lt (h.tags.below value hmem tag htag)
      · rintro token' tag heq
        cases heq
        refine ⟨Nat.lt_succ_self _, fun hmem => ?_⟩
        obtain ⟨value, hvalue, htag⟩ := List.mem_filterMap.mp hmem
        exact absurd (h.tags.below value hvalue _ htag) (Nat.lt_irrefl _)
    | error error =>
      dsimp only
      split
      · exact h.move (hstays (by simp) (by simp)) (by simp)
      · exact h.move (hstays (by simp) (by simp)) (by simp)
  case h_3 token tag hpublishing =>
    rw [hpublishing] at hstays
    have hold := hstays (by simp) (by simp)
    refine h.sends ?_ ?_ ?_ (by simp)
    · intro hidle
      cases hexpires : token.expiresAt with
      | none => exact .inl hidle
      | some expiry => exact hold
    · intro next hcurrent
      cases hexpires : token.expiresAt with
      | none => exact .inr ⟨token, tag, hcurrent, hexpires⟩
      | some expiry =>
        rintro ⟨token', tag', hcurrent', hnone⟩
        rw [hcurrent] at hcurrent'
        cases hcurrent'
        rw [hexpires] at hnone
        cases hnone
    · intro tag' htag
      cases htag
      exact h.tags.publishing token tag hpublishing
  case h_4 hsent =>
    rw [hsent] at htask
    exact h.move (htask.imp_right .inl) (by simp)
  case h_5 expiry hsent =>
    rw [hsent] at htask
    exact h.move htask (by simp)
  case h_6 error hpermanent =>
    rw [hpermanent] at htask
    split
    · exact h.move ‹_› (by simp)
    · exact h.sends .inl (fun next hcurrent => .inr (.inr ⟨error, hcurrent⟩))
        (by simp [tagOf]) (by simp)
  case h_7 error deadline huntil =>
    split
    · exact h.sends .inl (fun next hcurrent => .inr (.inr ⟨error, hcurrent⟩))
        (by simp [tagOf]) (by simp)
    · exact h
  case h_8 error short htransient =>
    rw [htransient] at hstays
    have hold := hstays (by simp) (by simp)
    have hsends : Sound { system.send (.error error) with task := .sleeping short } :=
      h.sends (fun _ => hold) (fun next hcurrent => not_forever_error hcurrent)
        (by simp [tagOf]) (by simp)
    split
    · exact hsends
    · split
      · exact hsends
      · split
        · exact h.move ‹_› (by simp)
        · exact h.move hold (by simp)
  case h_9 error deadline short huntil =>
    rw [huntil] at hstays
    have hold := hstays (by simp) (by simp)
    split
    · exact h.sends (fun _ => hold) (fun next hcurrent => not_forever_error hcurrent)
        (by simp [tagOf]) (by simp)
    · exact h
  case h_10 wake hsleeping =>
    rw [hsleeping] at hstays
    split
    · exact h.move (hstays (by simp) (by simp)) (by simp)
    · exact h
  case h_11 => exact h

/-! ## The calls -/

theorem take_version : (system.published.take system.version).getLast? = system.current := by
  rw [System.version, List.take_length, System.current]

/-- A call that has to wait has seen a value that the task will replace. -/
theorem not_final_of_expiring {token : Token} {tag : EntityTag} {expiry : ℕ}
    (hcurrent : system.current = some (.ok (token, tag))) (h : token.expiresAt = some expiry) :
    ¬Final system.current := by
  rintro (⟨token', tag', hcurrent', hnone⟩ | ⟨error, hcurrent'⟩)
  · rw [hcurrent] at hcurrent'
    cases hcurrent'
    rw [h] at hnone
    cases hnone
  · rw [hcurrent] at hcurrent'
    cases hcurrent'

theorem not_final_none (hcurrent : system.current = none) : ¬Final system.current := by
  rintro (⟨token', tag', hcurrent', -⟩ | ⟨error, hcurrent'⟩)
  · rw [hcurrent] at hcurrent'
    cases hcurrent'
  · rw [hcurrent] at hcurrent'
    cases hcurrent'

theorem stageSound_callStep (h : Sound system) {call : Call} (hmem : call ∈ system.calls) :
    StageSound system (system.callStep call) := by
  have hstage := h.stage call hmem
  have hlive := h.live call hmem
  unfold System.callStep
  cases hcall : call.stage with
  | called => exact ⟨le_rfl, take_version.symm⟩
  | read value seen =>
    rw [hcall] at hstage
    obtain ⟨hseen, hvalue⟩ := hstage
    have hcurrent : seen = system.version → system.current = value := by
      rintro rfl
      rw [hvalue, take_version]
    dsimp only
    split
    case h_1 token tag =>
      split
      case h_1 => trivial
      case h_2 expiry hexpires =>
        split
        · exact ⟨hseen, fun heq => not_final_of_expiring (hcurrent heq) hexpires⟩
        · trivial
    case h_2 error => trivial
    case h_3 => exact ⟨hseen, fun heq => not_final_none (hcurrent heq)⟩
  | waiting seen =>
    rw [hcall] at hstage hlive
    dsimp only
    split
    case isTrue hne => exact lt_of_le_of_ne hstage.1 hne
    case isFalse heq =>
      have heq : seen = system.version := not_not.mp heq
      split
      case isTrue hended =>
        -- the task ends only at a value that no call waits upon
        have htask := h.task
        rw [hended] at htask
        have hcaches := hlive rfl
        exact absurd (htask.resolve_left (by omega)) (hstage.2 heq)
      case isFalse => exact hstage
  | changed seen =>
    rw [hcall] at hstage
    dsimp only
    split
    · trivial
    case h_2 hnone =>
      have hempty : system.published = [] := by
        simpa [System.current] using hnone
      have hlt : seen < system.version := hstage
      simp [System.version, hempty] at hlt
  | returned version answer => trivial
  | panicked =>
    rw [hcall] at hstage
    exact hstage
  | cancelled => trivial

theorem inFlight_of_callStep {call : Call} (h : (system.callStep call).inFlight = true) :
    call.stage.inFlight = true := by
  unfold System.callStep at h
  cases hcall : call.stage <;> simp_all [Stage.inFlight]

theorem Sound.setCall (h : Sound system) {index : ℕ} {call : Call} {stage : Stage}
    (hstage : StageSound system stage) (hlive : stage.inFlight → 0 < system.caches) :
    Sound { system with calls := system.calls.set index { call with stage } } where
  task := h.task
  stage call' hmem := by
    rcases List.mem_or_eq_of_mem_set hmem with hmem | rfl
    · exact stageSound_congr (h.stage call' hmem) rfl
    · exact stageSound_congr hstage rfl
  live call' hmem hflight := by
    rcases List.mem_or_eq_of_mem_set hmem with hmem | rfl
    · exact h.live call' hmem hflight
    · exact hlive hflight
  tags := ⟨h.tags.below, h.tags.nodup, h.tags.publishing⟩

/-! ## Runs -/

/-- Only the number of clones, the clock and the generator change. -/
theorem Sound.rest (h : Sound system) {now generator caches : ℕ}
    (hgenerator : system.generator ≤ generator) (hcaches : system.caches = 0 → caches = 0)
    (hlive : ∀ call ∈ system.calls, call.stage.inFlight → 0 < caches) :
    Sound { system with now, generator, caches } where
  task := by
    have htask := h.task
    cases hcase : system.task with
    | sent expiresAt =>
      rw [hcase] at htask
      cases expiresAt with
      | none => exact htask.imp_left hcaches
      | some expiry => exact htask
    | ended =>
      rw [hcase] at htask
      exact htask.imp_left hcaches
    | _ =>
      rw [hcase] at htask
      exact htask
  stage call hmem := stageSound_congr (h.stage call hmem) rfl
  live := hlive
  tags := {
    below value hmem tag htag := (h.tags.below value hmem tag htag).trans_le hgenerator
    nodup := h.tags.nodup
    publishing token tag htask := by
      obtain ⟨hlt, hnew⟩ := h.tags.publishing token tag htask
      exact ⟨hlt.trans_le hgenerator, hnew⟩ }

theorem sound_step (h : Sound system) (event : Event) : Sound (system.step event) := by
  cases event with
  | tick duration => exact h.rest le_rfl id h.live
  | newTag => exact h.rest (Nat.le_succ _) id h.live
  | task answer => exact sound_taskStep h answer
  | call presented =>
    unfold System.step
    dsimp only
    split
    · exact h
    case isFalse hcaches =>
      refine ⟨h.task, fun call hmem => ?_, fun call hmem hflight => Nat.pos_of_ne_zero hcaches,
        h.tags.below, h.tags.nodup, h.tags.publishing⟩
      rcases List.mem_append.mp hmem with hmem | hmem
      · exact stageSound_congr (h.stage call hmem) rfl
      · obtain rfl := List.mem_singleton.mp hmem
        trivial
  | step index =>
    unfold System.step
    dsimp only
    split
    case h_1 call hcall =>
      have hmem := List.mem_of_getElem? hcall
      exact h.setCall (stageSound_callStep h hmem) fun hflight =>
        h.live call hmem (inFlight_of_callStep hflight)
    case h_2 => exact h
  | cancel index =>
    unfold System.step
    dsimp only
    split
    · split
      · exact h.setCall trivial (by simp [Stage.inFlight])
      · exact h
    · exact h
  | cloneCache =>
    unfold System.step
    dsimp only
    split
    · exact h
    · exact h.rest le_rfl (fun hzero => absurd hzero ‹_›) fun _ _ _ => Nat.succ_pos _
  | dropCache =>
    unfold System.step
    dsimp only
    split
    · exact h
    case isFalse hkeep =>
      refine h.rest le_rfl (fun hzero => by omega) fun call hmem hflight => ?_
      have hpos := h.live call hmem hflight
      by_contra hzero
      refine hkeep ⟨by omega, ?_⟩
      exact List.any_eq_true.mpr ⟨call, hmem, hflight⟩
  | abort =>
    unfold System.step
    dsimp only
    split
    · exact h.move (.inl ‹_›) (by simp)
    · exact h

theorem sound_run (now generator : ℕ) (events : List Event) :
    Sound (System.run { now, generator } events) := by
  refine Interleaving.foldl_invariant (motive := Sound)
    (fun system event h => sound_step h event) ?_ events
  refine ⟨?_, by simp, by simp, by simp, by simp, by simp⟩
  rintro ⟨token, tag, hcurrent, -⟩
  cases hcurrent

/-! ## What callers see -/

section Callers

variable {token : Token} {tag : EntityTag}

theorem currentExpiration_eq (h : system.current = some (.ok (token, tag))) :
    system.currentExpiration = token.expiresAt := by
  rw [System.currentExpiration, h]

theorem current_of_published {next : System} (h : next.published = system.published) :
    next.current = system.current := by
  rw [System.current, System.current, h]

theorem send_current_ok {token' : Token} {tag' : EntityTag}
    (h : system.current = some (.ok (token, tag))) (error : CredentialsError) :
    (system.send (.ok (token', tag'))).current ≠ some (.error error) := by
  unfold System.send
  split
  · simp [h]
  · simp [System.current]

/-- The task replaces a token with an error only when the token has expired. -/
theorem expired_of_taskStep (hsound : Sound system)
    (h : system.current = some (.ok (token, tag))) {answer : Except CredentialsError Token}
    {error : CredentialsError} (herror : (system.taskStep answer).current = some (.error error)) :
    ∃ expiry, token.expiresAt = some expiry ∧ expiry ≤ system.now := by
  have hsame : system.current ≠ some (.error error) := by simp [h]
  have hexpiration := currentExpiration_eq h
  have htask := hsound.task
  unfold System.taskStep at herror
  split at herror
  case h_1 =>
    split at herror
    · exact absurd herror hsame
    · exact absurd herror hsame
  case h_2 =>
    cases answer with
    | ok token => exact absurd herror hsame
    | error e =>
      dsimp only at herror
      split at herror
      · exact absurd herror hsame
      · exact absurd herror hsame
  case h_3 => exact absurd herror (send_current_ok h error)
  case h_4 => exact absurd herror hsame
  case h_5 => exact absurd herror hsame
  case h_6 e hpermanent =>
    rw [hpermanent] at htask
    split at herror
    · exact absurd herror hsame
    · exact absurd ⟨token, tag, h, by rw [← hexpiration]; assumption⟩ htask
  case h_7 e deadline huntil =>
    rw [huntil] at htask
    split at herror
    · exact ⟨deadline, hexpiration.symm.trans htask, ‹_›⟩
    · exact absurd herror hsame
  case h_8 e short htransient =>
    rw [htransient] at htask
    split at herror
    · exact absurd ⟨token, tag, h, by rw [← hexpiration]; assumption⟩ htask
    case h_2 deadline hdeadline =>
      split at herror
      case isTrue hlt => exact ⟨deadline, hexpiration.symm.trans hdeadline, hlt.le⟩
      case isFalse =>
        split at herror
        · exact absurd herror hsame
        · exact absurd herror hsame
  case h_9 e deadline short huntil =>
    rw [huntil] at htask
    split at herror
    · exact ⟨deadline, hexpiration.symm.trans htask, ‹_›⟩
    · exact absurd herror hsame
  case h_10 =>
    split at herror
    · exact absurd herror hsame
    · exact absurd herror hsame
  case h_11 => exact absurd herror hsame

theorem step_published {event : Event} (h : ∀ answer, event ≠ .task answer) :
    (system.step event).published = system.published := by
  cases event with
  | task answer => exact absurd rfl (h answer)
  | tick duration => rfl
  | newTag => rfl
  | call presented =>
    unfold System.step
    dsimp only
    split <;> rfl
  | step index =>
    unfold System.step
    dsimp only
    split <;> rfl
  | cancel index =>
    unfold System.step
    dsimp only
    split
    · split <;> rfl
    · rfl
  | cloneCache =>
    unfold System.step
    dsimp only
    split <;> rfl
  | dropCache =>
    unfold System.step
    dsimp only
    split <;> rfl
  | abort =>
    unfold System.step
    dsimp only
    split <;> rfl

theorem expired_of_step (hsound : Sound system) (h : system.current = some (.ok (token, tag)))
    {event : Event} {error : CredentialsError}
    (herror : (system.step event).current = some (.error error)) :
    ∃ expiry, token.expiresAt = some expiry ∧ expiry ≤ system.now := by
  by_cases htask : ∃ answer, event = .task answer
  · obtain ⟨answer, rfl⟩ := htask
    exact expired_of_taskStep hsound h herror
  · push Not at htask
    rw [current_of_published (step_published htask), h] at herror
    cases herror

/-- What a call answers, by where it read the value: before the check of the clock, or as the
current value after it had waited. -/
theorem callStep_returned {call : Call} (hflight : call.stage.inFlight) {version : ℕ}
    {answer : Except CredentialsError (CacheableResource Token)}
    (h : system.callStep call = .returned version answer) :
    ∃ value, answer = System.respond call.presented value ∧
      ((call.stage = .read (some value) version ∧
          ∀ token tag expiry, value = .ok (token, tag) → token.expiresAt = some expiry →
            system.now ≤ expiry) ∨
        ∃ seen, call.stage = .changed seen ∧ version = system.version ∧
          system.current = some value) := by
  unfold System.callStep at h
  cases hcall : call.stage with
  | called =>
    rw [hcall] at h
    cases h
  | read value seen =>
    rw [hcall] at h
    dsimp only at h
    split at h
    case h_1 token tag =>
      split at h
      case h_1 hnone =>
        cases h
        refine ⟨_, rfl, .inl ⟨rfl, fun token' tag' expiry heq hexpiry => ?_⟩⟩
        cases heq
        rw [hnone] at hexpiry
        cases hexpiry
      case h_2 expiry hexpires =>
        split at h
        · cases h
        case isFalse hvalid =>
          cases h
          refine ⟨_, rfl, .inl ⟨rfl, fun token' tag' expiry' heq hexpiry => ?_⟩⟩
          cases heq
          rw [hexpires] at hexpiry
          cases hexpiry
          exact not_lt.mp hvalid
    case h_2 error =>
      cases h
      exact ⟨.error error, rfl, .inl ⟨rfl, fun token tag expiry heq => by cases heq⟩⟩
    case h_3 => cases h
  | waiting seen =>
    rw [hcall] at h
    dsimp only at h
    split at h
    · cases h
    · split at h <;> cases h
  | changed seen =>
    rw [hcall] at h
    dsimp only at h
    split at h
    case h_1 value hvalue =>
      cases h
      exact ⟨value, rfl, .inr ⟨seen, rfl, rfl, hvalue⟩⟩
    case h_2 => cases h
  | returned version answer => simp [hcall, Stage.inFlight] at hflight
  | panicked => simp [hcall, Stage.inFlight] at hflight
  | cancelled => simp [hcall, Stage.inFlight] at hflight

theorem respond_new {presented : Option EntityTag} (h : System.respond presented value =
    .ok (.new tag token)) : value = .ok (token, tag) := by
  unfold System.respond at h
  split at h
  · split at h
    · cases h
    · cases h
      rfl
  · cases h

theorem respond_notModified {presented : Option EntityTag} (h : System.respond presented value =
    .ok .notModified) : ∃ token tag, presented = some tag ∧ value = .ok (token, tag) := by
  unfold System.respond at h
  split at h
  case h_1 token tag =>
    split at h
    case isTrue hsame => exact ⟨token, tag, hsame, rfl⟩
    case isFalse => cases h
  case h_2 => cases h

theorem getElem?_of_getLast?_take {α : Type*} {values : List α} {version : ℕ} {value : α}
    (hle : version ≤ values.length) (h : some value = (values.take version).getLast?) :
    ∃ k, version = k + 1 ∧ values[k]? = some value := by
  cases version with
  | zero => simp at h
  | succ k =>
    refine ⟨k, rfl, ?_⟩
    rw [List.getLast?_eq_getElem?, List.length_take_of_le hle, Nat.add_sub_cancel,
      List.getElem?_take_of_lt (Nat.lt_succ_self k)] at h
    exact h.symm

/-- The position of an entity tag among the values sent. -/
theorem TagsSound.position_unique (h : TagsSound system) {k k' : ℕ} {token' : Token}
    (hk : system.published[k]? = some (.ok (token, tag)))
    (hk' : system.published[k']? = some (.ok (token', tag))) : k' = k := by
  obtain ⟨hlt, hvalue⟩ := List.getElem?_eq_some_iff.mp hk
  obtain ⟨hlt', hvalue'⟩ := List.getElem?_eq_some_iff.mp hk'
  have hpairwise := List.pairwise_iff_getElem.mp (List.pairwise_filterMap.mp h.nodup)
  rcases Nat.lt_trichotomy k' k with hbefore | heq | hafter
  · exact absurd rfl (hpairwise k' k hlt' hlt hbefore tag (by rw [hvalue']; rfl) tag
      (by rw [hvalue]; rfl))
  · exact heq
  · exact absurd rfl (hpairwise k k' hlt hlt' hafter tag (by rw [hvalue]; rfl) tag
      (by rw [hvalue']; rfl))

/-- A call that answers that nothing was modified has read the value with the presented tag. -/
theorem notModified_position (hsound : Sound system) {call : Call} (hmem : call ∈ system.calls)
    (hflight : call.stage.inFlight) {version : ℕ}
    (h : system.callStep call = .returned version (.ok .notModified)) :
    ∃ k token tag, call.presented = some tag ∧ version = k + 1 ∧
      system.published[k]? = some (.ok (token, tag)) := by
  obtain ⟨value, hanswer, hread⟩ := callStep_returned hflight h
  obtain ⟨token, tag, hpresented, rfl⟩ := respond_notModified hanswer.symm
  have hstage := hsound.stage call hmem
  rcases hread with ⟨hcall, -⟩ | ⟨seen, hcall, rfl, hcurrent⟩
  · rw [hcall] at hstage
    obtain ⟨k, hversion, hk⟩ := getElem?_of_getLast?_take hstage.1 hstage.2
    exact ⟨k, token, tag, hpresented, hversion, hk⟩
  · obtain ⟨k, hversion, hk⟩ :=
      getElem?_of_getLast?_take le_rfl (hcurrent.symm.trans take_version.symm)
    exact ⟨k, token, tag, hpresented, hversion, hk⟩

end Callers

/-- In every state that the cache reaches: the next step replaces a token with an error only when
the token has expired. A call that returns a token returns one that is valid at its check of the
clock, or, when it has waited, the current value, which was sent after the call had read the
channel. As long as a clone of the cache exists, a task that has ended leaves an error or a token
without expiry; no call panics, and none stays in `changed` when the task has ended. A call answers
`NotModified` only when the value that it read is the one sent with the presented tag. -/
theorem cache_safety (now generator : ℕ) (events : List Event) :
    let s := System.run { now, generator } events
    (∀ event token tag error, s.current = some (.ok (token, tag)) →
      (s.step event).current = some (.error error) →
        ∃ expiry, token.expiresAt = some expiry ∧ expiry ≤ s.now) ∧
    (∀ call ∈ s.calls, call.stage.inFlight → ∀ version tag token,
      s.callStep call = .returned version (.ok (.new tag token)) →
        (∀ expiry, token.expiresAt = some expiry → s.now ≤ expiry) ∨
          ∃ seen, call.stage = .changed seen ∧ seen < s.version ∧
            s.current = some (.ok (token, tag))) ∧
    (s.task = .ended → 0 < s.caches → Final s.current) ∧
    (∀ call ∈ s.calls, s.callStep call ≠ .panicked ∧
      (s.task = .ended → ∀ seen, call.stage = .waiting seen →
        s.callStep call = .changed seen)) ∧
    ∀ call ∈ s.calls, call.stage.inFlight → ∀ version,
      s.callStep call = .returned version (.ok .notModified) →
        ∃ k token tag, call.presented = some tag ∧ version = k + 1 ∧
          s.published[k]? = some (.ok (token, tag)) ∧
          ∀ k' token', s.published[k']? = some (.ok (token', tag)) → k' = k := by
  intro s
  have hsound : Sound s := sound_run now generator events
  refine ⟨fun event token tag error h herror => expired_of_step hsound h herror,
    fun call hmem hflight version tag token h => ?_, fun hended hcaches => ?_,
    fun call hmem => ⟨fun hpanic => ?_, fun hended seen hwaiting => ?_⟩,
    fun call hmem hflight version h => ?_⟩
  · obtain ⟨value, hanswer, hread⟩ := callStep_returned hflight h
    obtain rfl := respond_new hanswer.symm
    rcases hread with ⟨-, hvalid⟩ | ⟨seen, hcall, -, hcurrent⟩
    · exact .inl fun expiry hexpiry => hvalid token tag expiry rfl hexpiry
    · have hstage := hsound.stage call hmem
      rw [hcall] at hstage
      exact .inr ⟨seen, hcall, hstage, hcurrent⟩
  · have htask := hsound.task
    rw [hended] at htask
    exact htask.resolve_left (by omega)
  · have hstage := stageSound_callStep hsound hmem
    rw [hpanic] at hstage
    exact hstage
  · have hstage := stageSound_callStep hsound hmem
    rw [System.callStep, hwaiting] at hstage ⊢
    dsimp only at hstage ⊢
    split
    · rfl
    · rw [if_neg ‹_›, if_pos hended] at hstage
      exact hstage.elim
  · obtain ⟨k, token, tag, hpresented, hversion, hk⟩ := notModified_position hsound hmem hflight h
    exact ⟨k, token, tag, hpresented, hversion, hk,
      fun k' token' hk' => hsound.tags.position_unique hk hk'⟩

/-- The task once around its loop, with a token from the provider. -/
def refreshed (text : String) (expiry : ℕ) : List Event :=
  List.replicate 4 (.task (.ok { token := text, expiresAt := some expiry }))

theorem cache_safety_expired :
    ∃ expiry, (some 1 : Option ℕ) = some expiry ∧
      expiry ≤ (System.run ⟨0, 0, [], .checking, 1, []⟩ (refreshed "a" 1 ++
        [Event.tick (2 * shortRefreshSlack), .task (.error ⟨true, ""⟩), .task (.error ⟨true, ""⟩),
          .task (.error ⟨true, ""⟩)])).now :=
  (cache_safety 0 0 (refreshed "a" 1 ++
      [Event.tick (2 * shortRefreshSlack), .task (.error ⟨true, ""⟩), .task (.error ⟨true, ""⟩),
        .task (.error ⟨true, ""⟩)])).1
    (.task (.error ⟨true, ""⟩)) ⟨"a", "Bearer", some 1⟩ ⟨0⟩ ⟨true, ""⟩ (by decide +kernel)
    (by decide +kernel)

/-- A call that is late returns the second value sent after its check, a token that had expired
before it. A task that ends for want of receivers leaves nothing behind. A call answers `NotModified`
when another value has been sent since it read its own. -/
theorem late_call_returns_later_value :
    (let s := System.run { now := 0, generator := 0 }
        (refreshed "a" 1 ++ [Event.call none, .step 0, .tick 5, .step 0, .tick shortRefreshSlack,
          .task (.ok { token := "b" })] ++ refreshed "b" (10 ^ 10) ++
          [Event.step 0, .tick shortRefreshSlack, .task (.ok { token := "c" })] ++ refreshed "c" 2)
     s.published = [.ok (⟨"a", "Bearer", some 1⟩, ⟨0⟩),
        .ok (⟨"b", "Bearer", some (10 ^ 10)⟩, ⟨1⟩), .ok (⟨"c", "Bearer", some 2⟩, ⟨2⟩)] ∧
     s.calls = [⟨none, .changed 1⟩] ∧
     (s.step (.step 0)).calls = [⟨none, .returned 3 (.ok (.new ⟨2⟩ ⟨"c", "Bearer", some 2⟩))⟩]) ∧
    (let s := System.run { now := 0, generator := 0 } [.dropCache, .task (.ok { token := "a" })]
     s.task = .ended ∧ s.current = none) ∧
    (let s := System.run { now := 0, generator := 0 }
        (refreshed "a" (10 ^ 12) ++ [Event.call (some ⟨0⟩), .step 0, .tick (10 ^ 12 - normalRefreshSlack),
          .task (.ok { token := "b" })] ++ refreshed "b" (10 ^ 13))
     s.current = some (.ok (⟨"b", "Bearer", some (10 ^ 13)⟩, ⟨1⟩)) ∧
     (s.step (.step 0)).calls = [⟨some ⟨0⟩, .returned 1 (.ok .notModified)⟩]) := by
  decide +kernel

end GoogleCloudRust.TokenCache
