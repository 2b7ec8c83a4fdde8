import GoogleCloudRust.Verification.ConnectionCache.Entries

/-! # One connection per key

Calls that start after the last eviction of a key count on the entry of that key: while one
of them holds its cell or has returned its connection, the entry stays. -/

namespace GoogleCloudRust.ConnectionCache

variable {Key : Type} [DecidableEq Key] {cacheKey : String → Key} {keyOf : ℕ → Key}
  {cache next : ConnectionCache Key} {call : Call} {phase : Phase} {index cell start : ℕ}
  {connection : ServerConnection} {key : Key}

/-- The calls for the key from the given one on hold the cell of its entry and return the
connection that is in it. -/
structure Shares (cacheKey : String → Key) (start : ℕ) (key : Key) (cache : ConnectionCache Key) :
    Prop where
  held : ∀ (index : ℕ) call cell, start ≤ index → cache.calls[index]? = some call →
    cacheKey call.address = key → call.phase.cell? = some cell →
    cache.servers.lookup key = some cell
  result : ∀ (index : ℕ) call connection, start ≤ index → cache.calls[index]? = some call →
    cacheKey call.address = key → call.phase.result = some connection →
    ∃ cell, cache.servers.lookup key = some cell ∧ cache.value cell = some connection

section Step

variable (h : Inv cacheKey keyOf cache) (hindex : cache.calls[index]? = some call)
  (htransition : Transition cacheKey cache index call phase next)

include h htransition

/-- Nobody removes an entry on which another call counts, or which has a connection. -/
theorem Transition.keeps_entry (hlookup : cache.servers.lookup key = some cell)
    (hcounts : (cache.value cell).isSome ∨ ∃ (other : ℕ) (holder : Call), other ≠ index ∧
      cache.calls[other]? = some holder ∧ holder.phase.cell? = some cell) :
    next.servers.lookup key = some cell := by
  cases htransition with
  | inserted hphase hnone =>
    dsimp only
    rw [HashMap.lookup_insert_eq, if_neg, hlookup]
    rintro rfl
    rw [hlookup] at hnone
    cases hnone
  | removed other hphase hother hnone hcount =>
    dsimp only
    rw [HashMap.lookup_erase_eq, if_neg, hlookup]
    rintro rfl
    rw [hlookup] at hother
    cases hother
    rcases hcounts with hsome | ⟨position, holder, hne, hholder, hcell⟩
    · simp [hnone] at hsome
    · exact no_holder h hlookup hcount hne hholder hcell
  | stay | answeredDefault | answered | missed | joined | shared | began | dialed | abandoned
  | gaveUp | left | kept | released => exact hlookup

omit h in
/-- A call that holds a cell has found it at its key or held it before. -/
theorem Transition.held (hcell : phase.cell? = some cell) :
    next.servers.lookup (cacheKey call.address) = some cell ∨
      (call.phase.cell? = some cell ∧ next.servers = cache.servers) := by
  cases htransition with
  | stay => exact .inr ⟨hcell, rfl⟩
  | joined other hphase hlookup =>
    cases hcell
    exact .inl hlookup
  | inserted hphase hlookup =>
    cases hcell
    refine .inl ?_
    dsimp only
    rw [HashMap.lookup_insert_eq, if_pos rfl]
  | shared other _ hphase | began other hphase | dialed other hphase | abandoned other hphase =>
    cases hcell
    exact .inr ⟨by simp [hphase, Phase.cell?], rfl⟩
  | gaveUp other phase hphase =>
    rcases hphase with ⟨hphase, rfl⟩ | ⟨hphase, rfl⟩ <;> cases hcell <;>
      exact .inr ⟨by simp [hphase, Phase.cell?], rfl⟩
  | left other hphase =>
    cases hcell
    refine .inr ⟨?_, rfl⟩
    rcases hphase with hphase | hphase <;> simp [hphase, Phase.cell?]
  | answeredDefault | answered | missed | removed | kept | released => cases hcell

include hindex

/-- A connection that a call returns is in the cell of the entry, provided that the call counts
on this entry. -/
theorem Transition.result (hresult : phase.result = some connection)
    (hheld : ∀ cell, call.phase.cell? = some cell →
      cache.servers.lookup (cacheKey call.address) = some cell)
    (hreturned : call.phase.result = some connection →
      ∃ cell, cache.servers.lookup (cacheKey call.address) = some cell ∧
        cache.value cell = some connection) :
    ∃ cell, next.servers.lookup (cacheKey call.address) = some cell ∧
      next.value cell = some connection := by
  have hpermit := h.permit index call
  cases htransition with
  | stay => exact hreturned hresult
  | answeredDefault hphase hdefault =>
    cases hresult
    rw [(isDefaultAddress_iff h.defaultKey).mp hdefault]
    exact h.default
  | answered cell found hphase hlookup hvalue =>
    cases hresult
    exact ⟨cell, hlookup, hvalue⟩
  | shared cell found hphase hvalue =>
    cases hresult
    exact ⟨cell, hheld cell (by simp [hphase, Phase.cell?]), hvalue⟩
  | dialed cell hphase =>
    cases hresult
    refine ⟨cell, hheld cell (by simp [hphase, Phase.cell?]), ?_⟩
    rw [value_set (lt_of_cell (hpermit cell hindex hphase)) rfl, if_pos rfl]
  | released cell result hphase => exact hreturned (by rw [hphase]; exact hresult)
  | gaveUp cell phase hphase =>
    rcases hphase with ⟨-, rfl⟩ | ⟨-, rfl⟩ <;> cases hresult
  | missed | joined | inserted | began | abandoned | left | removed | kept => cases hresult

theorem Transition.shares (hshares : Shares cacheKey start key cache) :
    Shares cacheKey start key
      { next with calls := next.calls.set index { call with phase := phase } } := by
  have hevolves := htransition.evolves h hindex
  obtain ⟨hcalls, -, -⟩ := htransition.unchanged
  rw [hcalls]
  constructor
  · intro other holder cell hstart hother hkey hcell
    rcases Interleaving.getElem?_set_cases hother with ⟨rfl, rfl⟩ | ⟨hne, hother⟩
    · subst hkey
      rcases htransition.held hcell with hlookup | ⟨hcell, hservers⟩
      · exact hlookup
      · dsimp only
        rw [hservers]
        exact hshares.held other call cell hstart hindex rfl hcell
    · have hlookup := htransition.keeps_entry h
        (hshares.held other holder cell hstart hother hkey hcell)
        (.inr ⟨other, holder, hne, hother, hcell⟩)
      exact hlookup
  · intro other holder connection hstart hother hkey hresult
    rcases Interleaving.getElem?_set_cases hother with ⟨rfl, rfl⟩ | ⟨hne, hother⟩
    · subst hkey
      have hheld : ∀ cell, call.phase.cell? = some cell →
          cache.servers.lookup (cacheKey call.address) = some cell :=
        fun cell hcell => hshares.held other call cell hstart hindex rfl hcell
      obtain ⟨cell, hlookup, hvalue⟩ := htransition.result h hindex hresult hheld fun hreturned =>
        hshares.result other call connection hstart hindex rfl hreturned
      exact ⟨cell, hlookup, hvalue⟩
    · obtain ⟨cell, hlookup, hvalue⟩ :=
        hshares.result other holder connection hstart hother hkey hresult
      have hkeeps := htransition.keeps_entry h hlookup (.inl (by simp [hvalue]))
      exact ⟨cell, hkeeps, hevolves.value cell connection hvalue⟩

end Step

theorem Shares.step {event : Event} (hshares : Shares cacheKey start key cache)
    (h : Inv cacheKey keyOf cache)
    (hevict : ∀ address, event = .evict address → cacheKey address ≠ key) :
    Shares cacheKey start key (step cacheKey cache event) := by
  cases event with
  | get address =>
    constructor
    · intro index call cell hstart hindex hkey hcell
      rcases Interleaving.getElem?_concat_cases hindex with hindex | ⟨-, rfl⟩
      · exact hshares.held index call cell hstart hindex hkey hcell
      · cases hcell
    · intro index call connection hstart hindex hkey hresult
      rcases Interleaving.getElem?_concat_cases hindex with hindex | ⟨-, rfl⟩
      · exact hshares.result index call connection hstart hindex hkey hresult
      · cases hresult
  | evict address =>
    change Shares cacheKey start key (cache.evict cacheKey address).2
    rcases evict_cases h.defaultKey address with heq | ⟨-, heq⟩
    · rw [heq]
      exact hshares
    · have hsame : (cache.servers.erase (cacheKey address)).lookup key = cache.servers.lookup key := by
        rw [HashMap.lookup_erase_eq, if_neg (hevict address rfl).symm]
      rw [heq]
      constructor
      · intro index call cell hstart hindex hkey hcell
        exact hsame.trans (hshares.held index call cell hstart hindex hkey hcell)
      · intro index call connection hstart hindex hkey hresult
        obtain ⟨cell, hlookup, hvalue⟩ :=
          hshares.result index call connection hstart hindex hkey hresult
        exact ⟨cell, hsame.trans hlookup, hvalue⟩
  | perform index action =>
    cases hindex : cache.calls[index]? with
    | none => simpa only [ConnectionCache.step, hindex] using hshares
    | some call =>
        rw [step_perform hindex]
        exact (perform_transition action).shares h hindex hshares

theorem Shares.run {events : List Event} (hshares : Shares cacheKey start key cache)
    (h : ∃ keyOf, Inv cacheKey keyOf cache)
    (hevict : ∀ address, .evict address ∈ events → cacheKey address ≠ key) :
    Shares cacheKey start key (cache.run cacheKey events) := by
  induction events generalizing cache with
  | nil => exact hshares
  | cons event events ih =>
      obtain ⟨keyOf, h⟩ := h
      refine ih (hshares.step h fun address heq => hevict address ?_) (h.step event) ?_
      · rw [heq]
        exact List.mem_cons_self
      · exact fun address hmem => hevict address (List.mem_cons_of_mem _ hmem)

theorem Shares.getIfPresent (hshares : Shares cacheKey start key cache)
    (h : Inv cacheKey keyOf cache) (hstart : start ≤ index)
    (hindex : cache.calls[index]? = some call) (hkey : cacheKey call.address = key)
    (hresult : call.phase.result = some connection) {address : String}
    (haddress : cacheKey address = key) :
    cache.getIfPresent cacheKey address = some connection := by
  obtain ⟨cell, hlookup, hvalue⟩ :=
    hshares.result index call connection hstart hindex hkey hresult
  unfold ConnectionCache.getIfPresent
  split_ifs with hdefault
  · obtain ⟨other, hother, hfound⟩ := h.default
    rw [← (isDefaultAddress_iff h.defaultKey).mp hdefault, haddress, hlookup] at hother
    cases hother
    exact hfound.symm.trans hvalue
  · rw [haddress, hlookup]
    exact hvalue

/-- However the calls interleave, fail and are cancelled: once a call for a key that started
after the last eviction of the key has returned a connection, this connection is what every
address with the key has in the cache, so all such calls return the same one. -/
theorem returned_connection_cached (cacheKey : String → Key) (defaultConnection : ServerConnection)
    (before after : List Event) (key : Key)
    (hevict : ∀ address, .evict address ∈ after → cacheKey address ≠ key) (index : ℕ) (call : Call)
    (hstart : ((new cacheKey defaultConnection).run cacheKey before).calls.length ≤ index)
    (hindex : (((new cacheKey defaultConnection).run cacheKey before).run cacheKey
      after).calls[index]? = some call)
    (hkey : cacheKey call.address = key) (connection : ServerConnection)
    (hresult : call.phase.result = some connection) (address : String)
    (haddress : cacheKey address = key) :
    (((new cacheKey defaultConnection).run cacheKey before).run cacheKey after).getIfPresent
      cacheKey address = some connection := by
  have hbefore := inv_run cacheKey defaultConnection before
  have hafter := inv_run cacheKey defaultConnection (before ++ after)
  unfold ConnectionCache.run at hafter
  rw [List.foldl_append] at hafter
  obtain ⟨keyOf, hafter⟩ := hafter
  have hnone : Shares cacheKey ((new cacheKey defaultConnection).run cacheKey before).calls.length
      key ((new cacheKey defaultConnection).run cacheKey before) := by
    constructor
    all_goals
      intro other holder _ hstart hother
      rw [List.getElem?_eq_none hstart] at hother
      cases hother
  exact (hnone.run hbefore hevict).getIfPresent hafter hstart hindex hkey hresult haddress

/-- The second call takes over from the first, which is cancelled while it dials. -/
theorem returned_connection_cached_after_cancel :
    (((new String.length ⟨"default", 0, true⟩).run String.length [.get "c", .evict "c"]).run
      String.length
      [.get "a", .perform 1 .look, .perform 1 .orInsert, .perform 1 .acquire, .get "b",
        .perform 2 .look, .perform 2 .acquire, .perform 1 .cancel, .perform 1 .dropGuard,
        .perform 1 .removeUninitialized, .perform 2 .acquire, .perform 2 .dialed]).getIfPresent
      String.length "a" = some ⟨"b", 0, false⟩ :=
  returned_connection_cached String.length ⟨"default", 0, true⟩ _ _ 1 (by simp) 2
    ⟨"b", .releasing 1 (some ⟨"b", 0, false⟩)⟩ (by decide +kernel) (by decide +kernel)
    (by decide +kernel) ⟨"b", 0, false⟩ rfl "a" (by decide +kernel)

end GoogleCloudRust.ConnectionCache
