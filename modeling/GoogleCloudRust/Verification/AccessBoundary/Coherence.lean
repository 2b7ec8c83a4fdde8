import GoogleCloudRust.Library.Interleaving
import GoogleCloudRust.Model.AccessBoundary

/-! # Headers with an access boundary

An entity tag stands for one combination of the headers of the credentials and the access boundary.
A call is told that nothing was modified only if the headers it has under its tag are those of the
current credentials with the current boundary. A boundary is used as the first call found it: that it
expires later is not noticed as long as its tag is the same. -/

namespace GoogleCloudRust.AccessBoundary

open TokenCache (EntityTag CacheableResource CredentialsError)

/-- What a tag was issued for. -/
structure Issue where
  tag : EntityTag
  headers : HeaderMap
  view : Option String

/-! ## The first look at a boundary -/

/-- What the call saw, once it has returned. -/
def Call.observed (call : Call) : Option Observation :=
  match call.stage with
  | .returned observation _ => some observation
  | .called | .locked | .answered .. | .failed _ | .panicked | .cancelled => none

theorem observed_of_isWaiting {call : Call} (h : call.stage.isWaiting = true) :
    call.observed = none := by
  obtain ⟨presented, stage⟩ := call
  cases stage with
  | called => rfl
  | locked => rfl
  | _ => cases h

/-- A call looked at the boundary at the instant, and no call did before. -/
structure FirstSeen (calls : List Call) (boundary : Option BoundaryValue × EntityTag)
    (instant : ℕ) : Prop where
  seen : ∃ call ∈ calls, ∃ observation, call.observed = some observation ∧
    observation.boundary = boundary ∧ observation.instant = instant
  first : ∀ call ∈ calls, ∀ observation, call.observed = some observation →
    observation.boundary = boundary → instant ≤ observation.instant

/-- The header value of the boundary when it was first looked at. -/
def Viewed (calls : List Call) (boundary : Option BoundaryValue × EntityTag)
    (view : Option String) : Prop :=
  ∃ instant, FirstSeen calls boundary instant ∧ headerValueAt instant boundary.1 = view

theorem FirstSeen.set {calls : List Call} {boundary : Option BoundaryValue × EntityTag}
    {instant index : ℕ} {call call' : Call} (h : FirstSeen calls boundary instant)
    (hget : calls[index]? = some call) (hcall : call.observed = none)
    (hnew : ∀ observation, call'.observed = some observation →
      observation.boundary = boundary → instant ≤ observation.instant) :
    FirstSeen (calls.set index call') boundary instant where
  seen := by
    obtain ⟨other, hother, observation, hobserved, hboundary, hinstant⟩ := h.seen
    obtain ⟨i, hi⟩ := List.mem_iff_getElem?.mp hother
    have hne : index ≠ i := by
      rintro rfl
      obtain rfl := Option.some.inj (hget.symm.trans hi)
      cases hcall.symm.trans hobserved
    refine ⟨other, List.mem_of_getElem? (i := i) ?_, observation, hobserved, hboundary, hinstant⟩
    rw [List.getElem?_set_ne hne, hi]
  first := by
    intro other hother observation hobserved hboundary
    rcases List.mem_or_eq_of_mem_set hother with hold | rfl
    · exact h.first other hold observation hobserved hboundary
    · exact hnew observation hobserved hboundary

theorem FirstSeen.concat {calls : List Call} {boundary : Option BoundaryValue × EntityTag}
    {instant : ℕ} {call : Call} (h : FirstSeen calls boundary instant)
    (hcall : call.observed = none) : FirstSeen (calls ++ [call]) boundary instant where
  seen := by
    obtain ⟨other, hother, hobserved⟩ := h.seen
    exact ⟨other, List.mem_append_left _ hother, hobserved⟩
  first := by
    intro other hother observation hobserved hboundary
    rcases List.mem_append.mp hother with hold | hnew
    · exact h.first other hold observation hobserved hboundary
    · obtain rfl := List.mem_singleton.mp hnew
      cases hcall.symm.trans hobserved

/-- Up to its expiry a boundary has the same value. -/
theorem headerValueAt_eq {instant later : ℕ} {boundary : Option BoundaryValue}
    (hle : instant ≤ later) (hfresh : ∀ b, boundary = some b → later ≤ b.expiresAt) :
    headerValueAt instant boundary = headerValueAt later boundary := by
  cases boundary with
  | none => rfl
  | some b =>
      have hlater := hfresh b rfl
      have hearlier := hle.trans hlater
      simp [headerValueAt, Option.filter_some, hlater, hearlier]

/-! ## The invariant -/

/-- The cache has the combination of its tag. Its parts are current as long as their tags are. -/
inductive CacheSound (issued : List Issue) (system : System) : EntityTagCache → Prop
  | empty : CacheSound issued system {}
  | filled {issue : Issue} {credsTag boundaryTag : EntityTag} (hissued : issue ∈ issued)
      (hcreds : credsTag.value < system.generator)
      (hboundary : boundaryTag.value < system.generator)
      (hheaders : credsTag = system.credentials.1 → issue.headers = system.credentials.2)
      (hview : boundaryTag = system.boundary.2 →
        Viewed system.calls system.boundary issue.view) :
      CacheSound issued system ⟨some issue.tag, some credsTag, some issue.headers,
        some boundaryTag, some issue.view⟩

/-- The answer of a call fits what it saw. -/
def AnswerSound (isHeaderValue : String → Bool) (issued : List Issue)
    (presented : Option EntityTag) (observation : Observation) (tag : EntityTag)
    (view : Option String) : Except CredentialsError (CacheableResource HeaderMap) → Prop
  | .ok .notModified => presented = some tag ∧
      ⟨tag, observation.credentials.2, view⟩ ∈ issued
  | .ok (.new tag' data) => tag' = tag ∧ ⟨tag, observation.credentials.2, view⟩ ∈ issued ∧
      insertBoundary isHeaderValue observation.credentials.2 view = .ok data
  | .error error =>
      insertBoundary isHeaderValue observation.credentials.2 view = .error error

/-- What is known of a call. The cache does not change under a call that has the lock. -/
def CallSound (isHeaderValue : String → Bool) (issued : List Issue) (system : System)
    (call : Call) : Prop :=
  match call.stage with
  | .answered credentials resource => credentials.1.value < system.generator ∧
      (credentials.1 = system.credentials.1 → credentials.2 = system.credentials.2) ∧
      (resource = .new credentials.1 credentials.2 ∨ resource = .notModified ∧
        system.cache.credsTag = some credentials.1 ∧
        system.cache.credsData = some credentials.2)
  | .returned observation answer => ∃ tag view, Viewed system.calls observation.boundary view ∧
      AnswerSound isHeaderValue issued call.presented observation tag view answer
  | .panicked => False
  | .called | .locked | .failed _ | .cancelled => True

/-- What a call saw is in the past. The boundary it saw, if it is still the current one, has been
cached by that call or by an earlier one. -/
structure Looked (system : System) (observation : Observation) : Prop where
  instant_le : observation.instant ≤ system.now
  boundary_lt : observation.boundary.2.value < system.generator
  cached : observation.boundary.2 = system.boundary.2 →
    observation.boundary = system.boundary ∧ system.cache.boundaryTag = some system.boundary.2

structure Sound (isHeaderValue : String → Bool) (issued : List Issue) (system : System) :
    Prop where
  issued_lt : ∀ issue ∈ issued, issue.tag.value < system.generator
  issued_unique : ∀ issue ∈ issued, ∀ other ∈ issued, issue.tag = other.tag → issue = other
  credentials_lt : system.credentials.1.value < system.generator
  boundary_lt : system.boundary.2.value < system.generator
  cache : CacheSound issued system system.cache
  exclusive : ∀ (i j : ℕ) (call other : Call), system.calls[i]? = some call →
    system.calls[j]? = some other → call.stage.holdsLock = true → other.stage.holdsLock = true →
    i = j
  calls : ∀ call ∈ system.calls, CallSound isHeaderValue issued system call
  looked : ∀ call ∈ system.calls, ∀ observation, call.observed = some observation →
    Looked system observation

variable {isHeaderValue : String → Bool} {issued : List Issue} {system : System}

theorem new_sound (now generator : ℕ) (headers : HeaderMap) :
    Sound isHeaderValue [] (System.new now generator headers) where
  issued_lt _ h := absurd h List.not_mem_nil
  issued_unique _ h := absurd h List.not_mem_nil
  credentials_lt := by simp [System.new]
  boundary_lt := by simp [System.new]
  cache := .empty
  exclusive := by simp [System.new]
  calls _ h := absurd h List.not_mem_nil
  looked _ h := absurd h List.not_mem_nil

/-! ## Answers -/

/-- A boundary that is not cached has not been looked at. -/
inductive Found (system : System) (cache : EntityTagCache) : Option String → Prop
  | cached {view : Option String} (htag : cache.boundaryTag = some system.boundary.2)
      (hview : Viewed system.calls system.boundary view) : Found system cache view
  | current (htag : cache.boundaryTag ≠ some system.boundary.2) :
      Found system cache (headerValueAt system.now system.boundary.1)

/-- Whatever is asked for, the cache has the observed combination afterwards, and the answer is
that of the cache. -/
theorem respond_spec {cache : EntityTagCache} {credentials : EntityTag × HeaderMap}
    {resource : CacheableResource HeaderMap} (hcache : CacheSound issued system cache)
    (hresource : resource = .new credentials.1 credentials.2 ∨ resource = .notModified ∧
      cache.credsTag = some credentials.1 ∧ cache.credsData = some credentials.2)
    (presented : Option EntityTag) (new : EntityTag) :
    let boundary := answerTo cache.boundaryTag
      (system.boundary.2, headerValueAt system.now system.boundary.1)
    let update := respond isHeaderValue cache new presented resource boundary
    ∃ tag view, Found system cache view ∧
      (takesTag resource boundary = false ∧ ⟨tag, credentials.2, view⟩ ∈ issued ∨
        takesTag resource boundary = true ∧ tag = new) ∧
      update.2 = ⟨some tag, some credentials.1, some credentials.2, some system.boundary.2,
        some view⟩ ∧
      (update.1 = .ok .notModified ∧ presented = some tag ∨
        update.1 = ((insertBoundary isHeaderValue credentials.2 view).mapError .error).map
          (.new tag)) := by
  intro boundary update
  cases hcache with
  | empty =>
      rcases hresource with rfl | ⟨-, hnone, -⟩
      · exact ⟨new, _, .current nofun, .inr ⟨rfl, rfl⟩, rfl, .inr rfl⟩
      · cases hnone
  | @filled issue credsTag boundaryTag hissued hcreds hboundary hheaders hview =>
      obtain ⟨tag, headers, view⟩ := issue
      by_cases hsame : boundaryTag = system.boundary.2
      · have hanswer : boundary = .notModified := if_pos (congrArg some hsame)
        rcases hresource with rfl | ⟨rfl, htag, hdata⟩
        · refine ⟨new, view, .cached (congrArg some hsame) (hview hsame),
            .inr ⟨by rw [hanswer]; rfl, rfl⟩, ?_, .inr ?_⟩
          · simp only [update, hanswer, hsame]
            rfl
          · simp only [update, hanswer]
            rfl
        · obtain rfl := Option.some.inj htag
          obtain rfl := Option.some.inj hdata
          refine ⟨tag, view, .cached (congrArg some hsame) (hview hsame),
            .inl ⟨by rw [hanswer]; rfl, hissued⟩, ?_, ?_⟩
          · simp only [update, hanswer, respond, hsame]
            split_ifs <;> rfl
          · simp only [update, hanswer, respond]
            split_ifs with hpresented
            · exact .inl ⟨rfl, hpresented.2⟩
            · exact .inr rfl
      · have hanswer :
            boundary = .new system.boundary.2 (headerValueAt system.now system.boundary.1) :=
          if_neg (mt Option.some.inj hsame)
        have hnow : Found system ⟨some tag, some credsTag, some headers, some boundaryTag, some view⟩
            (headerValueAt system.now system.boundary.1) := .current (mt Option.some.inj hsame)
        rcases hresource with rfl | ⟨rfl, htag, hdata⟩
        · refine ⟨new, _, hnow, .inr ⟨by rw [hanswer]; rfl, rfl⟩, ?_, .inr ?_⟩
          · simp only [update, hanswer]
            rfl
          · simp only [update, hanswer]
            rfl
        · obtain rfl := Option.some.inj htag
          obtain rfl := Option.some.inj hdata
          refine ⟨new, _, hnow, .inr ⟨by rw [hanswer]; rfl, rfl⟩, ?_, .inr ?_⟩
          · simp only [update, hanswer]
            rfl
          · simp only [update, hanswer]
            rfl

/-! ## Steps -/

/-- Time goes on, tags are taken, and new headers or boundaries come with new tags. A later call is
not the first that looks at a boundary. -/
structure Advances (system next : System) : Prop where
  generator : system.generator ≤ next.generator
  now : system.now ≤ next.now
  seen : ∀ boundary instant, FirstSeen system.calls boundary instant →
    FirstSeen next.calls boundary instant
  credentials : next.credentials = system.credentials ∨
    system.generator ≤ next.credentials.1.value ∧ next.credentials.1.value < next.generator
  boundary : next.boundary = system.boundary ∨
    system.generator ≤ next.boundary.2.value ∧ next.boundary.2.value < next.generator

variable {next : System} {issued' : List Issue}

theorem Viewed.advance {boundary : Option BoundaryValue × EntityTag} {view : Option String}
    (h : Viewed system.calls boundary view) (hadvances : Advances system next) :
    Viewed next.calls boundary view := by
  obtain ⟨instant, hseen, hview⟩ := h
  exact ⟨instant, hadvances.seen boundary instant hseen, hview⟩

theorem Looked.advance {observation : Observation} (h : Looked system observation)
    (hadvances : Advances system next)
    (hcache : next.boundary = system.boundary →
      system.cache.boundaryTag = some system.boundary.2 →
      next.cache.boundaryTag = some system.boundary.2) : Looked next observation where
  instant_le := h.instant_le.trans hadvances.now
  boundary_lt := h.boundary_lt.trans_le hadvances.generator
  cached := by
    intro htag
    rcases hadvances.boundary with hsame | ⟨hnew, -⟩
    · rw [hsame] at htag
      obtain ⟨hboundary, hcached⟩ := h.cached htag
      rw [hsame]
      exact ⟨hboundary, hcache hsame hcached⟩
    · have hlt := h.boundary_lt
      rw [htag] at hlt
      omega

theorem CacheSound.advance {cache : EntityTagCache} (h : CacheSound issued system cache)
    (hadvances : Advances system next) (hsub : issued ⊆ issued') :
    CacheSound issued' next cache := by
  cases h with
  | empty => exact .empty
  | filled hissued hcreds hboundary hheaders hview =>
      refine .filled (hsub hissued) (hcreds.trans_le hadvances.generator)
        (hboundary.trans_le hadvances.generator) ?_ ?_
      · rcases hadvances.credentials with hsame | ⟨hnew, -⟩
        · rwa [hsame]
        · rintro rfl
          omega
      · rcases hadvances.boundary with hsame | ⟨hnew, -⟩
        · rw [hsame]
          exact fun htag => (hview htag).advance hadvances
        · rintro rfl
          omega

theorem AnswerSound.mono {presented : Option EntityTag} {observation : Observation}
    {tag : EntityTag} {view : Option String}
    {answer : Except CredentialsError (CacheableResource HeaderMap)}
    (h : AnswerSound isHeaderValue issued presented observation tag view answer)
    (hsub : issued ⊆ issued') :
    AnswerSound isHeaderValue issued' presented observation tag view answer := by
  cases answer with
  | error error => exact h
  | ok resource =>
      cases resource with
      | notModified => exact ⟨h.1, hsub h.2⟩
      | new tag' data => exact ⟨h.1, hsub h.2.1, h.2.2⟩

theorem CallSound.advance {call : Call} (h : CallSound isHeaderValue issued system call)
    (hadvances : Advances system next) (hsub : issued ⊆ issued')
    (hcache : call.stage.holdsLock = true → next.cache = system.cache) :
    CallSound isHeaderValue issued' next call := by
  obtain ⟨presented, stage⟩ := call
  cases stage with
  | answered credentials resource =>
      obtain ⟨hlt, hcurrent, hresource⟩ := h
      refine ⟨hlt.trans_le hadvances.generator, ?_, ?_⟩
      · rcases hadvances.credentials with hsame | ⟨hnew, -⟩
        · rwa [hsame]
        · intro heq
          rw [heq] at hlt
          omega
      · rwa [hcache rfl]
  | returned observation answer =>
      obtain ⟨tag, view, hview, hanswer⟩ := h
      exact ⟨tag, view, hview.advance hadvances, hanswer.mono hsub⟩
  | panicked => exact h
  | called => trivial
  | locked => trivial
  | failed error => trivial
  | cancelled => trivial

theorem Advances.credentials_lt (hadvances : Advances system next)
    (h : system.credentials.1.value < system.generator) :
    next.credentials.1.value < next.generator := by
  rcases hadvances.credentials with hsame | ⟨-, hnew⟩
  · rw [hsame]
    exact h.trans_le hadvances.generator
  · exact hnew

theorem Advances.boundary_lt (hadvances : Advances system next)
    (h : system.boundary.2.value < system.generator) :
    next.boundary.2.value < next.generator := by
  rcases hadvances.boundary with hsame | ⟨-, hnew⟩
  · rw [hsame]
    exact h.trans_le hadvances.generator
  · exact hnew

/-- The environment moves on. -/
theorem Sound.advance (h : Sound isHeaderValue issued system) (hadvances : Advances system next)
    (hcache : next.cache = system.cache) (hcalls : next.calls = system.calls) :
    Sound isHeaderValue issued next where
  issued_lt issue hmem := (h.issued_lt issue hmem).trans_le hadvances.generator
  issued_unique := h.issued_unique
  credentials_lt := hadvances.credentials_lt h.credentials_lt
  boundary_lt := hadvances.boundary_lt h.boundary_lt
  cache := hcache ▸ h.cache.advance hadvances (List.Subset.refl issued)
  exclusive := hcalls ▸ h.exclusive
  calls call hmem := (h.calls call (hcalls ▸ hmem)).advance hadvances (List.Subset.refl issued)
    fun _ => hcache
  looked call hmem observation hobserved :=
    (h.looked call (hcalls ▸ hmem) observation hobserved).advance hadvances
      fun _ hcached => hcache ▸ hcached

/-- One call moves on. It may change the cache if it has the lock. -/
theorem Sound.move (h : Sound isHeaderValue issued system) (hadvances : Advances system next)
    (hsub : issued ⊆ issued') (hlt : ∀ issue ∈ issued', issue.tag.value < next.generator)
    (hunique : ∀ issue ∈ issued', ∀ other ∈ issued', issue.tag = other.tag → issue = other)
    (hcache : CacheSound issued' next next.cache) {index : ℕ} {call call' : Call}
    (hget : system.calls[index]? = some call) (hcalls : next.calls = system.calls.set index call')
    (hkeeps : next.cache = system.cache ∨ call.stage.holdsLock = true)
    (hlock : call'.stage.holdsLock = true → call.stage.holdsLock = true ∨
      ∀ other ∈ system.calls, other.stage.holdsLock = false)
    (hcall : CallSound isHeaderValue issued' next call')
    (hcached : next.boundary = system.boundary →
      system.cache.boundaryTag = some system.boundary.2 →
      next.cache.boundaryTag = some system.boundary.2)
    (hlooked : ∀ observation, call'.observed = some observation → Looked next observation) :
    Sound isHeaderValue issued' next := by
  have hentry : ∀ (i : ℕ) (other : Call), next.calls[i]? = some other →
      i = index ∧ other = call' ∨ i ≠ index ∧ system.calls[i]? = some other := by
    intro i other hi
    rw [hcalls] at hi
    exact Interleaving.getElem?_set_cases hi
  -- A holder of the lock held it before, or it is the call and nobody did.
  have hholder : ∀ (i : ℕ) (other : Call), next.calls[i]? = some other →
      other.stage.holdsLock = true →
      (∃ before, system.calls[i]? = some before ∧ before.stage.holdsLock = true) ∨
        i = index ∧ ∀ other ∈ system.calls, other.stage.holdsLock = false := by
    intro i other hi hother
    rcases hentry i other hi with ⟨rfl, rfl⟩ | ⟨-, hbefore⟩
    · rcases hlock hother with hheld | hfree
      · exact .inl ⟨call, hget, hheld⟩
      · exact .inr ⟨rfl, hfree⟩
    · exact .inl ⟨other, hbefore, hother⟩
  have hcontra : ∀ (i : ℕ) (before : Call), system.calls[i]? = some before →
      before.stage.holdsLock = true → (∀ other ∈ system.calls, other.stage.holdsLock = false) →
      False := by
    intro i before hbefore hheld hfree
    exact absurd (hheld.symm.trans (hfree before (List.mem_of_getElem? hbefore))) (by decide)
  refine ⟨hlt, hunique, hadvances.credentials_lt h.credentials_lt,
    hadvances.boundary_lt h.boundary_lt, hcache, ?_, ?_, ?_⟩
  · intro i j first second hi hj hfirst hsecond
    rcases hholder i first hi hfirst with ⟨before, hbefore, hheld⟩ | ⟨rfl, hfree⟩
    · rcases hholder j second hj hsecond with ⟨before', hbefore', hheld'⟩ | ⟨-, hfree⟩
      · exact h.exclusive i j before before' hbefore hbefore' hheld hheld'
      · exact (hcontra i before hbefore hheld hfree).elim
    · rcases hholder j second hj hsecond with ⟨before', hbefore', hheld'⟩ | ⟨rfl, -⟩
      · exact (hcontra j before' hbefore' hheld' hfree).elim
      · rfl
  · intro other hmem
    obtain ⟨i, hi⟩ := List.mem_iff_getElem?.mp hmem
    rcases hentry i other hi with ⟨-, rfl⟩ | ⟨hne, hbefore⟩
    · exact hcall
    · refine (h.calls other (List.mem_of_getElem? hbefore)).advance hadvances hsub fun hheld => ?_
      rcases hkeeps with hsame | hcallHeld
      · exact hsame
      · exact absurd (h.exclusive i index other call hbefore hget hheld hcallHeld) hne
  · intro other hmem observation hobserved
    obtain ⟨i, hi⟩ := List.mem_iff_getElem?.mp hmem
    rcases hentry i other hi with ⟨-, rfl⟩ | ⟨-, hbefore⟩
    · exact hlooked observation hobserved
    · exact (h.looked other (List.mem_of_getElem? hbefore) observation hobserved).advance hadvances
        hcached

/-- A call that looks at a boundary now is the first one only if there was none. -/
theorem Sound.seen_set (h : Sound isHeaderValue issued system) {index : ℕ} {call call' : Call}
    (hget : system.calls[index]? = some call) (hcall : call.observed = none)
    (hnew : ∀ observation, call'.observed = some observation → observation.instant = system.now)
    {boundary : Option BoundaryValue × EntityTag} {instant : ℕ}
    (hseen : FirstSeen system.calls boundary instant) :
    FirstSeen (system.calls.set index call') boundary instant := by
  refine hseen.set hget hcall ?_
  intro observation hobserved _
  obtain ⟨other, hother, earlier, hearlier, -, rfl⟩ := hseen.seen
  rw [hnew observation hobserved]
  exact (h.looked other hother earlier hearlier).instant_le

/-- What a call finds of the boundary is what the first call found. -/
theorem Found.viewed {view : Option String} (hfound : Found system system.cache view)
    (h : Sound isHeaderValue issued system) {index : ℕ} {call call' : Call}
    (hget : system.calls[index]? = some call) (hcall : call.observed = none)
    {credentials : EntityTag × HeaderMap}
    (hobserved : call'.observed = some ⟨credentials, system.boundary, system.now⟩) :
    Viewed (system.calls.set index call') system.boundary view := by
  cases hfound with
  | cached htag hview =>
      obtain ⟨instant, hseen, hview⟩ := hview
      refine ⟨instant, h.seen_set hget hcall ?_ hseen, hview⟩
      intro observation hobserved'
      obtain rfl := Option.some.inj (hobserved.symm.trans hobserved')
      rfl
  | current htag =>
      obtain ⟨hindex, -⟩ := List.getElem?_eq_some_iff.mp hget
      refine ⟨system.now, ⟨⟨call', List.mem_set hindex call', _, hobserved, rfl, rfl⟩, ?_⟩, rfl⟩
      intro other hother observation hobserved' hboundary
      rcases List.mem_or_eq_of_mem_set hother with hold | rfl
      · have hlooked := h.looked other hold observation hobserved'
        exact absurd (hlooked.cached (congrArg Prod.snd hboundary)).2 htag
      · obtain rfl := Option.some.inj (hobserved.symm.trans hobserved')
        exact Nat.le_refl _

/-- A call ends its work with the lock. -/
theorem sound_finish (h : Sound isHeaderValue issued system) {index : ℕ}
    {presented : Option EntityTag} {credentials : EntityTag × HeaderMap}
    {resource : CacheableResource HeaderMap}
    (hget : system.calls[index]? = some ⟨presented, .answered credentials resource⟩) :
    ∃ issued', issued ⊆ issued' ∧ Sound isHeaderValue issued'
      (system.finish isHeaderValue index presented credentials resource) := by
  obtain ⟨hlt, hcurrent, hresource⟩ := h.calls _ (List.mem_of_getElem? hget)
  obtain ⟨tag, view, hfound, hissue, hcacheEq, hanswer⟩ :=
    @respond_spec isHeaderValue _ _ _ _ _ h.cache hresource presented ⟨system.generator⟩
  set boundary := answerTo system.cache.boundaryTag
    (system.boundary.2, headerValueAt system.now system.boundary.1) with hboundary
  set issue : Issue := ⟨tag, credentials.2, view⟩ with hissueEq
  set observation : Observation := ⟨credentials, system.boundary, system.now⟩ with hobservation
  set call' : Call := ⟨presented, Stage.ofAnswer observation
    (respond isHeaderValue system.cache ⟨system.generator⟩ presented resource boundary).1⟩
    with hcall'
  have hobserved : call'.observed = some observation := by
    rcases hanswer with ⟨hnot, -⟩ | hcombined
    · rw [hcall', hnot]
      rfl
    · rw [hcall', hcombined]
      cases insertBoundary isHeaderValue credentials.2 view <;> rfl
  have hview := hfound.viewed h hget rfl hobserved
  have hfinish : ∀ issued', issued ⊆ issued' → issue ∈ issued' →
      (∀ other ∈ issued', other.tag.value <
        (system.finish isHeaderValue index presented credentials resource).generator) →
      (∀ issue ∈ issued', ∀ other ∈ issued', issue.tag = other.tag → issue = other) →
      Sound isHeaderValue issued'
        (system.finish isHeaderValue index presented credentials resource) := by
    intro issued' hsub hmem hless hunique
    have hgenerator : system.generator ≤
        (system.finish isHeaderValue index presented credentials resource).generator := by
      rw [System.finish]
      dsimp only
      split_ifs <;> omega
    have hsaw : ∀ seen, call'.observed = some seen → seen = observation :=
      fun seen hseen => Option.some.inj (hseen.symm.trans hobserved)
    have hadvances : Advances system
        (system.finish isHeaderValue index presented credentials resource) := by
      refine ⟨hgenerator, Nat.le_refl _, fun _ _ => h.seen_set hget rfl ?_, .inl rfl, .inl rfl⟩
      intro seen hseen
      rw [hsaw seen hseen]
    have hcached : (system.finish isHeaderValue index presented credentials resource).cache =
        ⟨some tag, some credentials.1, some credentials.2, some system.boundary.2, some view⟩ :=
      hcacheEq
    refine h.move hadvances hsub hless hunique ?_ hget rfl (.inr rfl) (fun _ => .inl rfl) ?_
      (fun _ _ => congrArg EntityTagCache.boundaryTag hcached) ?_
    · rw [show (system.finish isHeaderValue index presented credentials resource).cache = _ from
        hcached]
      exact .filled hmem (hlt.trans_le hgenerator) (h.boundary_lt.trans_le hgenerator) hcurrent
        fun _ => hview
    · rcases hanswer with ⟨hnot, hpresented⟩ | hcombined
      · rw [hnot]
        exact ⟨tag, view, hview, hpresented, hmem⟩
      · rw [hcombined]
        cases hinsert : insertBoundary isHeaderValue credentials.2 view with
        | ok data => exact ⟨tag, view, hview, rfl, hmem, hinsert⟩
        | error error => exact ⟨tag, view, hview, hinsert⟩
    · intro seen hseen
      rw [hsaw seen hseen]
      exact ⟨Nat.le_refl _, h.boundary_lt.trans_le hgenerator,
        fun _ => ⟨rfl, congrArg EntityTagCache.boundaryTag hcached⟩⟩
  rcases hissue with ⟨hkeeps, hmem⟩ | ⟨htakes, rfl⟩
  · refine ⟨issued, List.Subset.refl issued, hfinish issued (List.Subset.refl issued) hmem ?_
      h.issued_unique⟩
    intro other hother
    rw [System.finish]
    dsimp only
    rw [← hboundary, hkeeps]
    exact h.issued_lt other hother
  · refine ⟨issued ++ [issue], List.subset_append_left _ _, hfinish _ (List.subset_append_left _ _)
      (List.mem_append_right _ List.mem_cons_self) ?_ ?_⟩
    · intro other hother
      rw [System.finish]
      dsimp only
      rw [← hboundary, htakes, if_pos rfl]
      rcases List.mem_append.mp hother with hother | hother
      · exact (h.issued_lt other hother).trans (Nat.lt_succ_self _)
      · obtain rfl := List.mem_singleton.mp hother
        exact Nat.lt_succ_self _
    · -- The new tag is above all others.
      have hnew : ∀ other ∈ issued, other.tag ≠ issue.tag := by
        intro other hother heq
        have hless := h.issued_lt other hother
        rw [heq] at hless
        exact lt_irrefl _ hless
      intro first hfirst second hsecond htag
      rcases List.mem_append.mp hfirst with hfirst | hfirst <;>
        rcases List.mem_append.mp hsecond with hsecond | hsecond
      · exact h.issued_unique first hfirst second hsecond htag
      · obtain rfl := List.mem_singleton.mp hsecond
        exact absurd htag (hnew first hfirst)
      · obtain rfl := List.mem_singleton.mp hfirst
        exact absurd htag.symm (hnew second hsecond)
      · exact (List.mem_singleton.mp hfirst).trans (List.mem_singleton.mp hsecond).symm

/-- A call moves on without an effect on the cache. -/
theorem Sound.setCall (h : Sound isHeaderValue issued system) {index : ℕ} {call : Call}
    (hget : system.calls[index]? = some call) (hold : call.observed = none) {stage : Stage}
    (hnew : (⟨call.presented, stage⟩ : Call).observed = none)
    (hlock : stage.holdsLock = true → call.stage.holdsLock = true ∨
      ∀ other ∈ system.calls, other.stage.holdsLock = false)
    (hcall : CallSound isHeaderValue issued system { call with stage := stage }) :
    Sound isHeaderValue issued
      { system with calls := system.calls.set index { call with stage := stage } } := by
  have hnone : ∀ observation,
      (⟨call.presented, stage⟩ : Call).observed = some observation → False := by
    intro observation hobserved
    cases hnew.symm.trans hobserved
  have hadvances : Advances system
      { system with calls := system.calls.set index { call with stage := stage } } :=
    ⟨Nat.le_refl _, Nat.le_refl _,
      fun _ _ => h.seen_set hget hold fun observation hobserved => (hnone observation hobserved).elim,
      .inl rfl, .inl rfl⟩
  exact h.move hadvances (List.Subset.refl issued) h.issued_lt h.issued_unique
    (h.cache.advance hadvances (List.Subset.refl issued)) hget rfl (.inl rfl) hlock
    (hcall.advance hadvances (List.Subset.refl issued) fun _ => rfl) (fun _ hcached => hcached)
    fun observation hobserved => (hnone observation hobserved).elim

theorem sound_callStep (h : Sound isHeaderValue issued system) {index : ℕ} {call : Call}
    (hget : system.calls[index]? = some call) (failure : Option CredentialsError) :
    ∃ issued', issued ⊆ issued' ∧ Sound isHeaderValue issued'
      (system.callStep isHeaderValue index call failure) := by
  obtain ⟨presented, stage⟩ := call
  unfold System.callStep
  cases stage with
  | called =>
      dsimp only
      split_ifs with hheld
      · exact ⟨issued, List.Subset.refl issued, h⟩
      · refine ⟨issued, List.Subset.refl issued, h.setCall hget rfl rfl (fun _ => .inr ?_) trivial⟩
        intro other hmem
        rw [Bool.eq_false_iff]
        exact fun hother => hheld (List.any_eq_true.mpr ⟨other, hmem, hother⟩)
  | locked =>
      refine ⟨issued, List.Subset.refl issued,
        h.setCall hget rfl (by cases failure <;> rfl) (fun _ => .inl rfl) ?_⟩
      cases failure with
      | some error => trivial
      | none =>
          refine ⟨h.credentials_lt, fun _ => rfl, ?_⟩
          rw [answerTo]
          split_ifs with htag
          · refine .inr ⟨rfl, htag, ?_⟩
            -- The cached data belong to the cached tag, which is the current one.
            have hcache := h.cache
            generalize system.cache = cache at hcache htag ⊢
            cases hcache with
            | empty => cases htag
            | filled _ _ _ hheaders _ => exact congrArg some (hheaders (Option.some.inj htag))
          · exact .inl rfl
  | answered credentials resource => exact sound_finish h hget
  | returned observation answer => exact ⟨issued, List.Subset.refl issued, h⟩
  | failed error => exact ⟨issued, List.Subset.refl issued, h⟩
  | panicked => exact ⟨issued, List.Subset.refl issued, h⟩
  | cancelled => exact ⟨issued, List.Subset.refl issued, h⟩

theorem sound_taskStep (h : Sound isHeaderValue issued system)
    (answer : Except CredentialsError (Option String)) :
    Sound isHeaderValue issued (system.taskStep answer) := by
  refine h.advance ?_ ?_ ?_
  · unfold System.taskStep
    cases system.task with
    | sleeping wake =>
        dsimp only
        split_ifs <;>
          exact ⟨Nat.le_refl _, Nat.le_refl _, fun _ _ hseen => hseen, .inl rfl, .inl rfl⟩
    | fetching =>
        cases answer with
        | ok value =>
            exact ⟨Nat.le_succ _, Nat.le_refl _, fun _ _ hseen => hseen, .inl rfl,
              .inr ⟨Nat.le_refl _, Nat.lt_succ_self _⟩⟩
        | error error =>
            exact ⟨Nat.le_refl _, Nat.le_refl _, fun _ _ hseen => hseen, .inl rfl, .inl rfl⟩
  · unfold System.taskStep
    cases system.task with
    | sleeping wake =>
        dsimp only
        split_ifs <;> rfl
    | fetching => cases answer <;> rfl
  · unfold System.taskStep
    cases system.task with
    | sleeping wake =>
        dsimp only
        split_ifs <;> rfl
    | fetching => cases answer <;> rfl

theorem sound_step (h : Sound isHeaderValue issued system) (event : Event) :
    ∃ issued', issued ⊆ issued' ∧
      Sound isHeaderValue issued' (system.step isHeaderValue event) := by
  cases event with
  | tick duration =>
      exact ⟨issued, List.Subset.refl issued,
        h.advance ⟨Nat.le_refl _, Nat.le_add_right _ _, fun _ _ hseen => hseen, .inl rfl, .inl rfl⟩
          rfl rfl⟩
  | newTag =>
      exact ⟨issued, List.Subset.refl issued,
        h.advance ⟨Nat.le_succ _, Nat.le_refl _, fun _ _ hseen => hseen, .inl rfl, .inl rfl⟩
          rfl rfl⟩
  | rotate headers =>
      refine ⟨issued, List.Subset.refl issued, h.advance ⟨Nat.le_succ _, Nat.le_refl _,
        fun _ _ hseen => hseen, ?_, .inl rfl⟩ rfl rfl⟩
      exact .inr ⟨Nat.le_refl _, Nat.lt_succ_self _⟩
  | task answer => exact ⟨issued, List.Subset.refl issued, sound_taskStep h answer⟩
  | call presented =>
      have hadvances : Advances system (system.step isHeaderValue (.call presented)) :=
        ⟨Nat.le_refl _, Nat.le_refl _, fun _ _ hseen => hseen.concat rfl, .inl rfl, .inl rfl⟩
      -- The new call waits for the lock.
      have hold : ∀ (i : ℕ) (call : Call), (system.calls ++ [⟨presented, .called⟩])[i]? = some call →
          call.stage.holdsLock = true → system.calls[i]? = some call := by
        intro i call hi hheld
        obtain hold | ⟨-, rfl⟩ := Interleaving.getElem?_concat_cases hi
        · exact hold
        · cases hheld
      refine ⟨issued, List.Subset.refl issued, h.issued_lt, h.issued_unique, h.credentials_lt,
        h.boundary_lt, h.cache.advance hadvances (List.Subset.refl issued), ?_, ?_, ?_⟩
      · intro i j call other hi hj hcall hother
        exact h.exclusive i j call other (hold i call hi hcall) (hold j other hj hother) hcall hother
      · intro call hmem
        rcases List.mem_append.mp hmem with hmem | hmem
        · exact (h.calls call hmem).advance hadvances (List.Subset.refl issued) fun _ => rfl
        · obtain rfl := List.mem_singleton.mp hmem
          trivial
      · intro call hmem observation hobserved
        rcases List.mem_append.mp hmem with hmem | hmem
        · exact (h.looked call hmem observation hobserved).advance hadvances
            fun _ hcached => hcached
        · obtain rfl := List.mem_singleton.mp hmem
          cases hobserved
  | step index failure =>
      rw [System.step]
      cases hget : system.calls[index]? with
      | none => exact ⟨issued, List.Subset.refl issued, h⟩
      | some call => exact sound_callStep h hget failure
  | cancel index =>
      rw [System.step]
      cases hget : system.calls[index]? with
      | none => exact ⟨issued, List.Subset.refl issued, h⟩
      | some call =>
          dsimp only
          split_ifs with hwaiting
          · have hnone := observed_of_isWaiting hwaiting
            refine ⟨issued, List.Subset.refl issued,
              h.setCall hget hnone rfl (fun hlock => ?_) trivial⟩
            cases hlock
          · exact ⟨issued, List.Subset.refl issued, h⟩

theorem sound_run (h : Sound isHeaderValue issued system) (events : List Event) :
    ∃ issued', Sound isHeaderValue issued' (system.run isHeaderValue events) := by
  refine Interleaving.foldl_invariant (motive := fun system =>
    ∃ issued, Sound isHeaderValue issued system) ?_ ⟨issued, h⟩ events
  intro system event hsound
  obtain ⟨issued, hsound⟩ := hsound
  obtain ⟨issued', -, hstep⟩ := sound_step hsound event
  exact ⟨issued', hstep⟩

/-! ## Coherence -/

/-- The boundary that the call saw had not expired. -/
def Observation.Fresh (observation : Observation) : Prop :=
  ∀ boundary, observation.boundary.1 = some boundary → observation.instant ≤ boundary.expiresAt

/-- The credentials that the call saw are joined with the boundary that it saw, as this boundary was
when a call looked at it first. -/
def Combines (isHeaderValue : String → Bool) (calls : List Call) (observation : Observation)
    (combined : Except CredentialsError HeaderMap) : Prop :=
  ∃ instant ≤ observation.instant, FirstSeen calls observation.boundary instant ∧
    insertBoundary isHeaderValue observation.credentials.2
      (headerValueAt instant observation.boundary.1) = combined

/-- The first look makes a difference only if the boundary has expired since. -/
theorem Combines.of_fresh {calls : List Call} {observation : Observation}
    {combined : Except CredentialsError HeaderMap}
    (h : Combines isHeaderValue calls observation combined) (hfresh : observation.Fresh) :
    insertBoundary isHeaderValue observation.credentials.2
      (headerValueAt observation.instant observation.boundary.1) = combined := by
  obtain ⟨instant, hle, -, hcombined⟩ := h
  rwa [headerValueAt_eq hle hfresh] at hcombined

/-- However calls, new credentials, new boundaries and cancellations interleave, no call panics, and
the headers of a call combine what it saw; with a boundary that has not expired they are what the
call would have made of it alone. All answers with one tag have the same headers, and a call is told
that nothing was modified only if it presented a tag whose headers combine what this call saw. An
error means that what it saw cannot be combined. -/
theorem headers_coherent (isHeaderValue : String → Bool) (now generator : ℕ) (headers : HeaderMap)
    (events : List Event) :
    let calls := ((System.new now generator headers).run isHeaderValue events).calls
    ∀ call ∈ calls, call.stage ≠ .panicked ∧
      ∀ observation answer, call.stage = .returned observation answer →
        (∀ tag data, answer = .ok (.new tag data) →
          Combines isHeaderValue calls observation (.ok data) ∧
          (observation.Fresh → insertBoundary isHeaderValue observation.credentials.2
            (headerValueAt observation.instant observation.boundary.1) = .ok data) ∧
          ∀ other ∈ calls, ∀ observation' data',
            other.stage = .returned observation' (.ok (.new tag data')) → data' = data) ∧
        (answer = .ok .notModified → ∃ tag, call.presented = some tag ∧
          ∀ other ∈ calls, ∀ observation' data,
            other.stage = .returned observation' (.ok (.new tag data)) →
            Combines isHeaderValue calls observation (.ok data)) ∧
        (∀ error, answer = .error error →
          Combines isHeaderValue calls observation (.error error)) := by
  obtain ⟨issued, h⟩ := @sound_run isHeaderValue _ _ (new_sound now generator headers) events
  -- The headers under an issued tag are those of its combination.
  have hissued : ∀ other ∈ ((System.new now generator headers).run isHeaderValue events).calls,
      ∀ observation tag data, other.stage = .returned observation (.ok (.new tag data)) →
        ∀ issue ∈ issued, issue.tag = tag →
          insertBoundary isHeaderValue issue.headers issue.view = .ok data := by
    intro other hmem observation tag data hstage issue hissue htag
    have hcall := h.calls other hmem
    rw [CallSound, hstage] at hcall
    obtain ⟨tag', view, -, rfl, hmem', hcombined⟩ := hcall
    obtain rfl := h.issued_unique _ hmem' issue hissue htag.symm
    exact hcombined
  intro calls call hmem
  have hcall := h.calls call hmem
  refine ⟨?_, ?_⟩
  · intro hpanicked
    rwa [CallSound, hpanicked] at hcall
  · intro observation answer hstage
    rw [CallSound, hstage] at hcall
    obtain ⟨tag', view, ⟨instant, hseen, hview⟩, hanswer⟩ := hcall
    have hobserved : call.observed = some observation := by rw [Call.observed, hstage]
    have hle := hseen.first call hmem observation hobserved rfl
    refine ⟨?_, ?_, ?_⟩
    · rintro tag data rfl
      obtain ⟨rfl, hmem', hcombined⟩ := hanswer
      have hcombines : Combines isHeaderValue calls observation (.ok data) :=
        ⟨instant, hle, hseen, by rw [hview]; exact hcombined⟩
      refine ⟨hcombines, hcombines.of_fresh, ?_⟩
      intro other hother observation' data' hother'
      have hsame := hissued other hother observation' _ data' hother' _ hmem' rfl
      exact Except.ok.inj (hsame.symm.trans hcombined)
    · rintro rfl
      obtain ⟨hpresented, hmem'⟩ := hanswer
      refine ⟨tag', hpresented, ?_⟩
      intro other hother observation' data hother'
      have hsame := hissued other hother observation' _ data hother' _ hmem' rfl
      exact ⟨instant, hle, hseen, by rw [hview]; exact hsame⟩
    · rintro error rfl
      exact ⟨instant, hle, hseen, by rw [hview]; exact hanswer⟩

/-- Seven hours after the first call the boundary has expired. New credentials are still joined with
it, since its tag is the same. -/
example : ∃ observation tag data,
    (((System.new 0 0 ∅).run (fun _ => true) [.task (.ok (some "0x1")), .call none, .step 0 none,
      .step 0 none, .step 0 none, .tick (7 * 60 * 60 * 10 ^ 9), .rotate ∅, .call none, .step 1 none,
      .step 1 none, .step 1 none]).calls[1]?).map Call.stage =
        some (.returned observation (.ok (.new tag data))) ∧
      data.lookup trustBoundaryHeader = some ["0x1"] ∧
      headerValueAt observation.instant observation.boundary.1 = none :=
  ⟨_, _, _, rfl, rfl, rfl⟩

end GoogleCloudRust.AccessBoundary
