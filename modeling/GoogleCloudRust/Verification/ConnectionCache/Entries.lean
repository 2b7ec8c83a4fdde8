import GoogleCloudRust.Library.Interleaving
import GoogleCloudRust.Model.ConnectionCache

/-! # No entry is left behind

An entry of the cache without a connection is some call's work in progress. A call that
fails removes the entry unless another call counts on it, so the last one always does. -/

namespace GoogleCloudRust.ConnectionCache

variable {Key : Type} {cache next : ConnectionCache Key} {cell other : ℕ}
  {connection : ServerConnection} {found : OnceCell}

/-! ## Cells -/

theorem value_eq_some_iff :
    cache.value cell = some connection ↔
      ∃ found, cache.cells[cell]? = some found ∧ found.value = some connection :=
  Option.bind_eq_some_iff

theorem value_of_cell (h : cache.cells[cell]? = some found) : cache.value cell = found.value := by
  rw [value, h]
  rfl

theorem lt_of_cell (h : cache.cells[cell]? = some found) : cell < cache.cells.length :=
  (List.getElem?_eq_some_iff.mp h).1

/-- The values after one cell has changed. -/
theorem value_set (hlt : cell < cache.cells.length) (hcells : next.cells = cache.cells.set cell found) :
    next.value other = if other = cell then found.value else cache.value other := by
  rw [value, hcells]
  split_ifs with h
  · subst h
    rw [List.getElem?_set_self hlt]
    rfl
  · rw [List.getElem?_set_ne (Ne.symm h)]
    rfl

/-- A change of the permit leaves every value as it is. -/
theorem value_set_of_value (hcell : cache.value cell = none) (hlt : cell < cache.cells.length)
    (hcells : next.cells = cache.cells.set cell found) (hfound : found.value = none) :
    next.value other = cache.value other := by
  rw [value_set hlt hcells]
  split_ifs with h
  · rw [h, hfound, hcell]
  · rfl

theorem value_concat (hcells : next.cells = cache.cells ++ [.new]) :
    next.value other = cache.value other := by
  rw [value, value, hcells]
  rcases Nat.lt_trichotomy other cache.cells.length with hlt | rfl | hgt
  · rw [List.getElem?_append_left hlt]
  · rw [List.getElem?_concat_length, List.getElem?_eq_none le_rfl]
    rfl
  · rw [List.getElem?_eq_none (by simp; omega), List.getElem?_eq_none hgt.le]

/-! ## What a call can do -/

variable [DecidableEq Key] {cacheKey : String → Key} {keyOf : ℕ → Key} {call : Call}
  {phase : Phase} {index : ℕ} {address : String}

theorem isDefaultAddress_iff
    (hdefault : cache.defaultKey = cacheKey cache.defaultConnection.address) :
    cache.isDefaultAddress cacheKey address = true ↔ cacheKey address = cache.defaultKey := by
  unfold isDefaultAddress
  split_ifs with h
  · simp [h, hdefault]
  · simp [eq_comm]

inductive Transition (cacheKey : String → Key) (cache : ConnectionCache Key) (index : ℕ)
    (call : Call) : Phase → ConnectionCache Key → Prop
  | stay : Transition cacheKey cache index call call.phase cache
  | answeredDefault (hphase : call.phase = .looking)
      (hdefault : cache.isDefaultAddress cacheKey call.address = true) :
      Transition cacheKey cache index call (.ended (some cache.defaultConnection)) cache
  | answered (cell : ℕ) (connection : ServerConnection) (hphase : call.phase = .looking)
      (hlookup : cache.servers.lookup (cacheKey call.address) = some cell)
      (hvalue : cache.value cell = some connection) :
      Transition cacheKey cache index call (.ended (some connection)) cache
  | missed (hphase : call.phase = .looking) :
      Transition cacheKey cache index call .missing cache
  | joined (cell : ℕ) (hphase : call.phase = .looking ∨ call.phase = .missing)
      (hlookup : cache.servers.lookup (cacheKey call.address) = some cell) :
      Transition cacheKey cache index call (.holding cell) cache
  | inserted (hphase : call.phase = .missing)
      (hlookup : cache.servers.lookup (cacheKey call.address) = none) :
      Transition cacheKey cache index call (.holding cache.cells.length)
        { cache with
          servers := cache.servers.insert (cacheKey call.address) cache.cells.length
          cells := cache.cells ++ [.new] }
  | shared (cell : ℕ) (connection : ServerConnection) (hphase : call.phase = .holding cell)
      (hvalue : cache.value cell = some connection) :
      Transition cacheKey cache index call (.releasing cell (some connection)) cache
  | began (cell : ℕ) (hphase : call.phase = .holding cell)
      (hcell : cache.cells[cell]? = some .new) :
      Transition cacheKey cache index call (.dialing cell)
        { cache with cells := cache.cells.set cell { initializing := true } }
  | dialed (cell : ℕ) (hphase : call.phase = .dialing cell) :
      Transition cacheKey cache index call
        (.releasing cell (some ⟨call.address, cache.channels, false⟩))
        { cache with
          cells := cache.cells.set cell { value := some ⟨call.address, cache.channels, false⟩ }
          channels := cache.channels + 1 }
  | abandoned (cell : ℕ) (hphase : call.phase = .dialing cell) :
      Transition cacheKey cache index call (.dropping cell)
        { cache with cells := cache.cells.set cell .new }
  | gaveUp (cell : ℕ) (phase : Phase)
      (hphase : call.phase = .holding cell ∧ phase = .dropping cell ∨
        call.phase = .dropping cell ∧ phase = .removing cell) :
      Transition cacheKey cache index call phase cache
  | left (cell : ℕ) (hphase : call.phase = .dropping cell ∨ call.phase = .removing cell)
      (h : (cache.value cell).isSome ∨
        cache.servers.lookup (cacheKey call.address) ≠ some cell) :
      Transition cacheKey cache index call (.releasing cell none) cache
  | removed (cell : ℕ) (hphase : call.phase = .removing cell)
      (hlookup : cache.servers.lookup (cacheKey call.address) = some cell)
      (hvalue : cache.value cell = none)
      (hcount : strongCount { cache with
        calls := cache.calls.set index { call with phase := .ended none } } cell = 1) :
      Transition cacheKey cache index call (.ended none)
        { cache with servers := cache.servers.erase (cacheKey call.address) }
  | kept (cell : ℕ) (hphase : call.phase = .removing cell)
      (hlookup : cache.servers.lookup (cacheKey call.address) = some cell)
      (hcount : strongCount { cache with
        calls := cache.calls.set index { call with phase := .ended none } } cell ≠ 1) :
      Transition cacheKey cache index call (.ended none) cache
  | released (cell : ℕ) (result : Option ServerConnection)
      (hphase : call.phase = .releasing cell result) :
      Transition cacheKey cache index call (.ended result) cache

theorem look_transition (hphase : call.phase = .looking) :
    Transition cacheKey cache index call (cache.look cacheKey call.address) cache := by
  unfold look
  split_ifs with hdefault
  · exact .answeredDefault hphase hdefault
  · cases hlookup : cache.servers.lookup (cacheKey call.address) with
    | none => exact .missed hphase
    | some cell =>
        cases hvalue : cache.value cell with
        | none => simpa [hvalue] using .joined cell (.inl hphase) hlookup
        | some connection => simpa [hvalue] using .answered cell connection hphase hlookup hvalue

theorem orInsert_transition (hphase : call.phase = .missing) :
    Transition cacheKey cache index call (cache.orInsert cacheKey call.address).1
      (cache.orInsert cacheKey call.address).2 := by
  unfold orInsert
  cases hlookup : cache.servers.lookup (cacheKey call.address) with
  | none => exact .inserted hphase hlookup
  | some cell => exact .joined cell (.inr hphase) hlookup

theorem acquire_transition (hphase : call.phase = .holding cell) :
    Transition cacheKey cache index call (cache.acquire cell).1 (cache.acquire cell).2 := by
  have hstay : Transition cacheKey cache index call (.holding cell) cache := hphase ▸ .stay
  unfold acquire
  split
  · next connection _ hcell => exact .shared cell connection hphase (value_of_cell hcell)
  · next hcell => exact .began cell hphase hcell
  · exact hstay

theorem removeUninitialized_transition (hphase : call.phase = .removing cell) :
    Transition cacheKey cache index call (cache.removeUninitialized cacheKey index call cell).1
      (cache.removeUninitialized cacheKey index call cell).2 := by
  unfold removeUninitialized
  cases hlookup : cache.servers.lookup (cacheKey call.address) with
  | none => exact .left cell (.inr hphase) (.inr (by simp [hlookup]))
  | some existing =>
      by_cases hother : existing = cell
      · subst hother
        cases hvalue : cache.value existing with
        | some connection =>
            simpa [hvalue] using .left existing (.inr hphase) (.inl (by simp [hvalue]))
        | none =>
            simp only [hvalue, ne_eq, not_true_eq_false, Option.isSome_none, Bool.false_eq_true,
              or_self, if_false, Option.isNone_none, and_true]
            split_ifs with hcount
            · exact .removed existing hphase hlookup hvalue hcount
            · exact .kept existing hphase hlookup hcount
      · simpa [hother] using .left cell (.inr hphase) (.inr (by simpa [hlookup] using hother))

theorem perform_transition (action : Action) :
    Transition cacheKey cache index call (cache.perform cacheKey index call action).1
      (cache.perform cacheKey index call action).2 := by
  unfold perform
  split
  · next hphase => exact look_transition hphase
  · next hphase => exact orInsert_transition hphase
  · next hphase => exact acquire_transition hphase
  · next hphase => exact .gaveUp _ _ (.inl ⟨hphase, rfl⟩)
  · next hphase => exact .dialed _ hphase
  · next hphase => exact .abandoned _ hphase
  · next hphase => exact .abandoned _ hphase
  · next hphase =>
    split_ifs with hnone
    · exact .gaveUp _ _ (.inr ⟨hphase, rfl⟩)
    · exact .left _ (.inl hphase) (.inl (by simpa [Option.isSome_iff_ne_none] using hnone))
  · next hphase => exact removeUninitialized_transition hphase
  · next hphase => exact .released _ _ hphase
  · exact .stay

/-! ## The invariant -/

/-- What holds of one call; `keyOf` is the key that a cell was allocated for. -/
structure CallInv (cacheKey : String → Key) (keyOf : ℕ → Key) (cache : ConnectionCache Key)
    (call : Call) : Prop where
  own : ∀ cell, call.phase.cell? = some cell →
    cell < cache.cells.length ∧ keyOf cell = cacheKey call.address
  result : ∀ connection, call.phase.result = some connection →
    cacheKey connection.address = cacheKey call.address
  untended : ∀ cell, call.phase.cell? = some cell → call.phase.tended = none →
    (cache.value cell).isSome ∨ ∀ key, cache.servers.lookup key ≠ some cell

structure Inv (cacheKey : String → Key) (keyOf : ℕ → Key) (cache : ConnectionCache Key) :
    Prop where
  defaultKey : cache.defaultKey = cacheKey cache.defaultConnection.address
  default : ∃ cell, cache.servers.lookup cache.defaultKey = some cell ∧
    cache.value cell = some cache.defaultConnection
  entry : ∀ key cell, cache.servers.lookup key = some cell →
    cell < cache.cells.length ∧ keyOf cell = key
  value : ∀ cell connection, cache.value cell = some connection →
    cacheKey connection.address = keyOf cell
  call : ∀ (index : ℕ) call, cache.calls[index]? = some call → CallInv cacheKey keyOf cache call
  permit : ∀ (index : ℕ) call cell, cache.calls[index]? = some call → call.phase = .dialing cell →
    cache.cells[cell]? = some ⟨none, true⟩
  unique : ∀ (index other : ℕ) first second cell, cache.calls[index]? = some first →
    cache.calls[other]? = some second → first.phase = .dialing cell →
    second.phase = .dialing cell → index = other
  tended : ∀ key cell, cache.servers.lookup key = some cell → cache.value cell = none →
    ∃ call ∈ cache.calls, call.phase.tended = some cell

/-- How the parts that all calls share may change: values stay, and an old cell that is no
longer in the map does not come back. -/
structure Evolves (cache next : ConnectionCache Key) : Prop where
  length_le : cache.cells.length ≤ next.cells.length
  value : ∀ cell connection, cache.value cell = some connection →
    next.value cell = some connection
  entry : ∀ key cell, cell < cache.cells.length → next.servers.lookup key = some cell →
    cache.servers.lookup key = some cell

theorem Evolves.refl (cache : ConnectionCache Key) : Evolves cache cache :=
  ⟨le_rfl, fun _ _ h => h, fun _ _ _ h => h⟩

theorem evolves_erase (cache : ConnectionCache Key) (key : Key) :
    Evolves cache { cache with servers := cache.servers.erase key } := by
  refine ⟨le_rfl, fun _ _ h => h, fun other cell _ h => ?_⟩
  dsimp only at h
  rw [HashMap.lookup_erase_eq] at h
  split_ifs at h
  exact h

theorem CallInv.mono {keyOf' : ℕ → Key} (h : CallInv cacheKey keyOf cache call)
    (hevolves : Evolves cache next) (hkey : ∀ cell < cache.cells.length, keyOf' cell = keyOf cell) :
    CallInv cacheKey keyOf' next call := by
  refine ⟨fun cell hcell => ?_, h.result, fun cell hcell htended => ?_⟩
  · obtain ⟨hlt, hown⟩ := h.own cell hcell
    exact ⟨hlt.trans_le hevolves.length_le, (hkey cell hlt).trans hown⟩
  · rcases h.untended cell hcell htended with hsome | hnone
    · obtain ⟨connection, hvalue⟩ := Option.isSome_iff_exists.mp hsome
      exact .inl (by simp [hevolves.value cell connection hvalue])
    · refine .inr fun key hlookup => hnone key ?_
      exact hevolves.entry key cell (h.own cell hcell).1 hlookup

theorem CallInv.with_calls (h : CallInv cacheKey keyOf cache call) (calls : List Call) :
    CallInv cacheKey keyOf { cache with calls := calls } call := ⟨h.own, h.result, h.untended⟩

theorem Phase.tended_eq_cell? (h : phase.tended ≠ none) : phase.tended = phase.cell? := by
  cases phase <;> simp_all [tended, cell?]

/-- The key of every cell once the call may have allocated one. -/
def keyAfter (cacheKey : String → Key) (keyOf : ℕ → Key) (cache : ConnectionCache Key)
    (call : Call) (cell : ℕ) : Key :=
  if cell < cache.cells.length then keyOf cell else cacheKey call.address

omit [DecidableEq Key] in
theorem keyAfter_of_lt (hlt : cell < cache.cells.length) :
    keyAfter cacheKey keyOf cache call cell = keyOf cell := if_pos hlt

theorem Transition.unchanged (htransition : Transition cacheKey cache index call phase next) :
    next.calls = cache.calls ∧ next.defaultConnection = cache.defaultConnection ∧
      next.defaultKey = cache.defaultKey := by
  cases htransition <;> exact ⟨rfl, rfl, rfl⟩

/-- The holder is another call that keeps a reference to the cell when this one ends: there is one
unless the reference in the map is the last. -/
theorem exists_holder (h : Inv cacheKey keyOf cache)
    (hlookup : cache.servers.lookup (cacheKey call.address) = some cell)
    (hcount : strongCount { cache with
      calls := cache.calls.set index { call with phase := .ended none } } cell ≠ 1) :
    ∃ (other : ℕ) (holder : Call), other ≠ index ∧ cache.calls[other]? = some holder ∧
      holder.phase.cell? = some cell := by
  unfold strongCount at hcount
  rw [HashMap.countP_value_eq_one hlookup fun key hkey =>
    (h.entry key cell hkey).2.symm.trans (h.entry _ cell hlookup).2] at hcount
  obtain ⟨holder, hmem, hholder⟩ := List.countP_pos_iff.mp (Nat.pos_of_ne_zero fun hzero =>
    hcount (by rw [hzero]))
  obtain ⟨other, hother⟩ := List.mem_iff_getElem?.mp hmem
  rcases Interleaving.getElem?_set_cases hother with ⟨rfl, rfl⟩ | ⟨hne, hother⟩
  · simp [Phase.cell?] at hholder
  · exact ⟨other, holder, hne, hother, by simpa using hholder⟩

theorem no_holder (h : Inv cacheKey keyOf cache)
    (hlookup : cache.servers.lookup (cacheKey call.address) = some cell)
    (hcount : strongCount { cache with
      calls := cache.calls.set index { call with phase := .ended none } } cell = 1)
    {other : ℕ} {holder : Call} (hne : other ≠ index) (hother : cache.calls[other]? = some holder) :
    holder.phase.cell? ≠ some cell := by
  unfold strongCount at hcount
  rw [HashMap.countP_value_eq_one hlookup fun key hkey =>
    (h.entry key cell hkey).2.symm.trans (h.entry _ cell hlookup).2, Nat.add_eq_left,
    List.countP_eq_zero] at hcount
  have hset : (cache.calls.set index { call with phase := .ended none })[other]? = some holder := by
    rw [List.getElem?_set_ne hne.symm, hother]
  simpa using hcount holder (List.mem_of_getElem? hset)

section Step

variable (h : Inv cacheKey keyOf cache) (hindex : cache.calls[index]? = some call)
  (htransition : Transition cacheKey cache index call phase next)

include h hindex htransition

theorem Transition.evolves : Evolves cache next := by
  have hpermit := h.permit index call
  cases htransition with
  | inserted hphase hlookup =>
    refine ⟨by simp, fun cell connection hvalue => ?_, fun key cell hlt hentry => ?_⟩
    · rw [value_concat rfl]
      exact hvalue
    · dsimp only at hentry
      rw [HashMap.lookup_insert_eq] at hentry
      split_ifs at hentry
      · exact absurd (Option.some.inj hentry) hlt.ne'
      · exact hentry
  | began cell hphase hcell =>
    refine ⟨by simp, fun other connection hvalue => ?_, fun _ _ _ hentry => hentry⟩
    rw [value_set_of_value (value_of_cell hcell) (lt_of_cell hcell) rfl rfl]
    exact hvalue
  | abandoned cell hphase =>
    have hcell := hpermit cell hindex hphase
    refine ⟨by simp, fun other connection hvalue => ?_, fun _ _ _ hentry => hentry⟩
    rw [value_set_of_value (value_of_cell hcell) (lt_of_cell hcell) rfl rfl]
    exact hvalue
  | dialed cell hphase =>
    have hcell := hpermit cell hindex hphase
    refine ⟨by simp, fun other connection hvalue => ?_, fun _ _ _ hentry => hentry⟩
    rw [value_set (lt_of_cell hcell) rfl]
    split_ifs with heq
    · rw [heq, value_of_cell hcell] at hvalue
      cases hvalue
    · exact hvalue
  | removed cell hphase hlookup hvalue hcount => exact evolves_erase cache _
  | stay | answeredDefault | answered | missed | joined | shared | gaveUp | left | kept
  | released => exact .refl cache

theorem Transition.callInv :
    CallInv cacheKey (keyAfter cacheKey keyOf cache call) next { call with phase := phase } := by
  have hevolves := htransition.evolves h hindex
  have hmono : CallInv cacheKey (keyAfter cacheKey keyOf cache call) next call :=
    (h.call index call hindex).mono hevolves fun cell hlt => keyAfter_of_lt hlt
  have hentry : ∀ cell, cache.servers.lookup (cacheKey call.address) = some cell →
      cell < cache.cells.length ∧
        keyAfter cacheKey keyOf cache call cell = cacheKey call.address := by
    intro cell hlookup
    obtain ⟨hlt, hkey⟩ := h.entry _ cell hlookup
    exact ⟨hlt, (keyAfter_of_lt hlt).trans hkey⟩
  have hvalue : ∀ cell connection, cache.value cell = some connection →
      keyOf cell = cacheKey call.address →
      cacheKey connection.address = cacheKey call.address := by
    intro cell connection hvalue hkey
    exact (h.value cell connection hvalue).trans hkey
  have hown := (h.call index call hindex).own
  cases htransition with
  | stay => exact hmono
  | answeredDefault hphase hdefault =>
    refine ⟨by simp [Phase.cell?], ?_, by simp [Phase.cell?]⟩
    rintro connection hresult
    cases hresult
    exact h.defaultKey.symm.trans ((isDefaultAddress_iff h.defaultKey).mp hdefault).symm
  | answered cell connection hphase hlookup hfound =>
    refine ⟨by simp [Phase.cell?], ?_, by simp [Phase.cell?]⟩
    rintro connection hresult
    cases hresult
    exact hvalue cell _ hfound (h.entry _ cell hlookup).2
  | missed hphase => exact ⟨by simp [Phase.cell?], by simp [Phase.result], by simp [Phase.cell?]⟩
  | joined cell hphase hlookup =>
    refine ⟨?_, by simp [Phase.result], by simp [Phase.tended]⟩
    rintro other hcell
    cases hcell
    exact hentry cell hlookup
  | inserted hphase hlookup =>
    refine ⟨?_, by simp [Phase.result], by simp [Phase.tended]⟩
    rintro other hcell
    cases hcell
    exact ⟨by simp, if_neg (lt_irrefl _)⟩
  | shared cell connection hphase hfound =>
    have hcell := hown cell (by simp [hphase, Phase.cell?])
    refine ⟨?_, ?_, ?_⟩
    · exact fun other hother => hmono.own other (by simpa [hphase, Phase.cell?] using hother)
    · rintro connection hresult
      cases hresult
      exact hvalue cell _ hfound hcell.2
    · rintro other hother -
      cases hother
      exact .inl (by simp [hfound])
  | began cell hphase hcell =>
    refine ⟨?_, by simp [Phase.result], by simp [Phase.tended]⟩
    exact fun other hother => hmono.own other (by simpa [hphase, Phase.cell?] using hother)
  | dialed cell hphase =>
    have hcell := h.permit index call cell hindex hphase
    refine ⟨?_, ?_, ?_⟩
    · exact fun other hother => hmono.own other (by simpa [hphase, Phase.cell?] using hother)
    · rintro connection hresult
      cases hresult
      rfl
    · rintro other hother -
      cases hother
      refine .inl ?_
      rw [value_set (lt_of_cell hcell) rfl, if_pos rfl]
      rfl
  | abandoned cell hphase =>
    refine ⟨?_, by simp [Phase.result], by simp [Phase.tended]⟩
    exact fun other hother => hmono.own other (by simpa [hphase, Phase.cell?] using hother)
  | gaveUp cell phase hphase =>
    rcases hphase with ⟨hphase, rfl⟩ | ⟨hphase, rfl⟩
    all_goals
      refine ⟨?_, by simp [Phase.result], by simp [Phase.tended]⟩
      exact fun other hother => hmono.own other (by simpa [hphase, Phase.cell?] using hother)
  | left cell hphase hleft =>
    have hcell : call.phase.cell? = some cell := by
      rcases hphase with hphase | hphase <;> simp [hphase, Phase.cell?]
    refine ⟨?_, by simp [Phase.result], ?_⟩
    · exact fun other hother => hmono.own other (hcell.trans hother)
    · rintro other hother -
      cases hother
      refine hleft.imp_right fun hne key hlookup => hne ?_
      rw [← (hown cell hcell).2, (h.entry key cell hlookup).2]
      exact hlookup
  | removed => exact ⟨by simp [Phase.cell?], by simp [Phase.result], by simp [Phase.cell?]⟩
  | kept => exact ⟨by simp [Phase.cell?], by simp [Phase.result], by simp [Phase.cell?]⟩
  | released cell result hphase =>
    refine ⟨by simp [Phase.cell?], ?_, by simp [Phase.cell?]⟩
    exact fun connection hresult => hmono.result connection (by rw [hphase]; exact hresult)

/-- The permit of a cell belongs to one call. -/
theorem Transition.permits :
    (∀ cell, phase = .dialing cell → next.cells[cell]? = some ⟨none, true⟩ ∧
      ∀ (other : ℕ) holder, other ≠ index → cache.calls[other]? = some holder →
        holder.phase ≠ .dialing cell) ∧
    ∀ (other : ℕ) holder cell, other ≠ index → cache.calls[other]? = some holder →
      holder.phase = .dialing cell → next.cells[cell]? = some ⟨none, true⟩ := by
  have hpermit := h.permit index call
  -- No cell changes but the one of which the call has the permit.
  have hothers : ∀ cell found, call.phase = .dialing cell → ∀ (other : ℕ) holder cell',
      other ≠ index → cache.calls[other]? = some holder → holder.phase = .dialing cell' →
      (cache.cells.set cell found)[cell']? = some ⟨none, true⟩ := by
    intro cell found hphase other holder cell' hne hother hdialing
    rw [List.getElem?_set_ne, h.permit other holder cell' hother hdialing]
    rintro rfl
    exact hne (h.unique other index holder call cell hother hindex hdialing hphase)
  have hsame : ∀ (other : ℕ) holder cell, other ≠ index → cache.calls[other]? = some holder →
      holder.phase = .dialing cell → cache.cells[cell]? = some ⟨none, true⟩ :=
    fun other holder cell _ hother hdialing => h.permit other holder cell hother hdialing
  cases htransition with
  | stay =>
    refine ⟨fun cell hphase => ⟨hpermit cell hindex hphase, ?_⟩, hsame⟩
    exact fun other holder hne hother hdialing =>
      hne (h.unique other index holder call cell hother hindex hdialing hphase)
  | inserted hphase hlookup =>
    refine ⟨by simp, fun other holder cell hne hother hdialing => ?_⟩
    have hcell := hsame other holder cell hne hother hdialing
    dsimp only
    rw [List.getElem?_append_left (lt_of_cell hcell)]
    exact hcell
  | began cell hphase hcell =>
    have hfree : ∀ (other : ℕ) holder, cache.calls[other]? = some holder →
        holder.phase ≠ .dialing cell := by
      intro other holder hother hdialing
      have hheld := h.permit other holder cell hother hdialing
      rw [hcell] at hheld
      cases hheld
    constructor
    · rintro other hother
      cases hother
      refine ⟨?_, fun other holder _ hother => hfree other holder hother⟩
      dsimp only
      rw [List.getElem?_set_self (lt_of_cell hcell)]
    · intro other holder other' hne hother hdialing
      have hcell' := hsame other holder other' hne hother hdialing
      dsimp only
      rw [List.getElem?_set_ne, hcell']
      rintro rfl
      exact hfree other holder hother hdialing
  | dialed cell hphase => exact ⟨by simp, hothers cell _ hphase⟩
  | abandoned cell hphase => exact ⟨by simp, hothers cell _ hphase⟩
  | gaveUp cell phase hphase =>
    refine ⟨fun other hother => ?_, hsame⟩
    rcases hphase with ⟨-, rfl⟩ | ⟨-, rfl⟩ <;> cases hother
  | answeredDefault | answered | missed | joined | shared | left | removed | kept | released =>
    exact ⟨by simp, hsame⟩

theorem Transition.entries (key : Key) (cell : ℕ) (hlookup : next.servers.lookup key = some cell) :
    cell < next.cells.length ∧ keyAfter cacheKey keyOf cache call cell = key := by
  have hevolves := htransition.evolves h hindex
  by_cases hlt : cell < cache.cells.length
  · exact ⟨hlt.trans_le hevolves.length_le, (keyAfter_of_lt hlt).trans
      (h.entry key cell (hevolves.entry key cell hlt hlookup)).2⟩
  · have hold : cache.servers.lookup key ≠ some cell := fun hold => hlt (h.entry key cell hold).1
    cases htransition with
    | inserted hphase hnone =>
      dsimp only at hlookup
      rw [HashMap.lookup_insert_eq] at hlookup
      split_ifs at hlookup with heq
      · cases hlookup
        exact ⟨by simp, (if_neg hlt).trans heq.symm⟩
      · exact absurd hlookup hold
    | removed cell hphase hlookup' hvalue hcount =>
      dsimp only at hlookup
      rw [HashMap.lookup_erase_eq] at hlookup
      split_ifs at hlookup
      exact absurd hlookup hold
    | stay | answeredDefault | answered | missed | joined | shared | began | dialed | abandoned
    | gaveUp | left | kept | released => exact absurd hlookup hold

theorem Transition.values (cell : ℕ) (connection : ServerConnection)
    (hvalue : next.value cell = some connection) :
    cacheKey connection.address = keyAfter cacheKey keyOf cache call cell := by
  have hpermit := h.permit index call
  have hsame : cache.value cell = some connection →
      cacheKey connection.address = keyAfter cacheKey keyOf cache call cell := by
    intro hold
    obtain ⟨found, hcell, -⟩ := value_eq_some_iff.mp hold
    rw [keyAfter_of_lt (lt_of_cell hcell)]
    exact h.value cell connection hold
  cases htransition with
  | inserted hphase hlookup => exact hsame ((value_concat rfl).symm.trans hvalue)
  | began other hphase hcell =>
    rw [value_set_of_value (value_of_cell hcell) (lt_of_cell hcell) rfl rfl] at hvalue
    exact hsame hvalue
  | abandoned other hphase =>
    have hcell := hpermit other hindex hphase
    rw [value_set_of_value (value_of_cell hcell) (lt_of_cell hcell) rfl rfl] at hvalue
    exact hsame hvalue
  | dialed other hphase =>
    have hcell := hpermit other hindex hphase
    rw [value_set (lt_of_cell hcell) rfl] at hvalue
    split_ifs at hvalue with heq
    · cases hvalue
      subst heq
      rw [keyAfter_of_lt (lt_of_cell hcell)]
      exact ((h.call index call hindex).own cell (by simp [hphase, Phase.cell?])).2.symm
    · exact hsame hvalue
  | stay | answeredDefault | answered | missed | joined | shared | gaveUp | left | removed | kept
  | released => exact hsame hvalue

theorem Transition.default : ∃ cell, next.servers.lookup next.defaultKey = some cell ∧
    next.value cell = some next.defaultConnection := by
  obtain ⟨cell, hlookup, hvalue⟩ := h.default
  have hevolves := htransition.evolves h hindex
  obtain ⟨-, hconnection, hkey⟩ := htransition.unchanged
  rw [hconnection, hkey]
  refine ⟨cell, ?_, hevolves.value cell _ hvalue⟩
  cases htransition with
  | inserted hphase hnone =>
    dsimp only
    rw [HashMap.lookup_insert_eq, if_neg, hlookup]
    intro heq
    rw [← heq, hlookup] at hnone
    cases hnone
  | removed other hphase hother hnone hcount =>
    dsimp only
    rw [HashMap.lookup_erase_eq, if_neg, hlookup]
    intro heq
    rw [← heq, hlookup] at hother
    cases hother
    rw [hvalue] at hnone
    cases hnone
  | stay | answeredDefault | answered | missed | joined | shared | began | dialed | abandoned
  | gaveUp | left | kept | released => exact hlookup

/-- A cell without a value that stays in the map and that the call has tended is still tended by
it, unless it has left the cell to another call. -/
theorem Transition.keeps_tended (key : Key) (hlookup : next.servers.lookup key = some cell)
    (hvalue : next.value cell = none) (htended : call.phase.tended = some cell) :
    phase.tended = some cell ∨ ∃ (other : ℕ) (holder : Call), other ≠ index ∧
      cache.calls[other]? = some holder ∧ holder.phase.tended = some cell := by
  have hown : ∀ cell, call.phase.cell? = some cell → keyOf cell = cacheKey call.address :=
    fun cell hcell => ((h.call index call hindex).own cell hcell).2
  have hpermit := h.permit index call
  cases htransition with
  | stay => exact .inl htended
  | shared other connection hphase hfound =>
    simp only [hphase, Phase.tended, Option.some.injEq] at htended
    subst htended
    rw [hfound] at hvalue
    cases hvalue
  | began other hphase hcell | abandoned other hphase =>
    exact .inl (by simpa [hphase, Phase.tended] using htended)
  | dialed other hphase =>
    simp only [hphase, Phase.tended, Option.some.injEq] at htended
    subst htended
    rw [value_set (lt_of_cell (hpermit other hindex hphase)) rfl, if_pos rfl] at hvalue
    cases hvalue
  | gaveUp other phase hphase =>
    rcases hphase with ⟨hphase, rfl⟩ | ⟨hphase, rfl⟩ <;>
      exact .inl (by simpa [hphase, Phase.tended] using htended)
  | left other hphase hleft =>
    obtain rfl : other = cell := by
      rcases hphase with hphase | hphase <;> simpa [hphase, Phase.tended] using htended
    have hkey := hown other (by rcases hphase with hphase | hphase <;> simp [hphase, Phase.cell?])
    rw [← hkey, (h.entry key other hlookup).2] at hleft
    rcases hleft with hsome | hne
    · simp [hvalue] at hsome
    · exact absurd hlookup hne
  | removed other hphase hother hnone hcount =>
    simp only [hphase, Phase.tended, Option.some.injEq] at htended
    subst htended
    dsimp only at hlookup
    rw [HashMap.lookup_erase_eq] at hlookup
    split_ifs at hlookup with heq
    exact absurd ((h.entry key other hlookup).2.symm.trans (h.entry _ other hother).2) heq
  | kept other hphase hother hcount =>
    simp only [hphase, Phase.tended, Option.some.injEq] at htended
    subst htended
    obtain ⟨position, holder, hne, hholder, hcell⟩ := exists_holder h hother hcount
    refine .inr ⟨position, holder, hne, hholder, ?_⟩
    have hnone : holder.phase.tended ≠ none := by
      intro hnone
      rcases (h.call position holder hholder).untended other hcell hnone with hsome | hne
      · simp [hvalue] at hsome
      · exact hne key hlookup
    exact (Phase.tended_eq_cell? hnone).trans hcell
  | answeredDefault hphase | answered _ _ hphase | missed hphase | inserted hphase
  | released _ _ hphase => simp [hphase, Phase.tended] at htended
  | joined other hphase =>
    rcases hphase with hphase | hphase <;> simp [hphase, Phase.tended] at htended

theorem Transition.tended (key : Key) (hlookup : next.servers.lookup key = some cell)
    (hvalue : next.value cell = none) :
    ∃ call' ∈ cache.calls.set index { call with phase := phase }, call'.phase.tended = some cell := by
  have hlt := (List.getElem?_eq_some_iff.mp hindex).1
  have hevolves := htransition.evolves h hindex
  by_cases hold : cache.servers.lookup key = some cell
  · have hnone : cache.value cell = none := by
      cases hfound : cache.value cell with
      | none => rfl
      | some connection =>
          rw [hevolves.value cell connection hfound] at hvalue
          cases hvalue
    obtain ⟨holder, hmem, htended⟩ := h.tended key cell hold hnone
    obtain ⟨position, hposition⟩ := List.mem_iff_getElem?.mp hmem
    have hother : ∀ (other : ℕ) holder, other ≠ index → cache.calls[other]? = some holder →
        holder ∈ cache.calls.set index { call with phase := phase } := by
      intro other holder hne hother
      exact List.mem_iff_getElem?.mpr ⟨other, by rw [List.getElem?_set_ne hne.symm, hother]⟩
    by_cases heq : position = index
    · subst heq
      obtain rfl := Option.some.inj (hindex.symm.trans hposition)
      rcases htransition.keeps_tended h hindex key hlookup hvalue htended with
        hkeeps | ⟨other, second, hne, hsecond, htended⟩
      · exact ⟨_, List.mem_set hlt _, hkeeps⟩
      · exact ⟨second, hother other second hne hsecond, htended⟩
    · exact ⟨holder, hother position holder heq hposition, htended⟩
  · cases htransition with
    | inserted hphase hnone =>
      dsimp only at hlookup
      rw [HashMap.lookup_insert_eq] at hlookup
      split_ifs at hlookup
      · cases hlookup
        exact ⟨_, List.mem_set hlt _, rfl⟩
      · exact absurd hlookup hold
    | removed other hphase hother hnone hcount =>
      dsimp only at hlookup
      rw [HashMap.lookup_erase_eq] at hlookup
      split_ifs at hlookup
      exact absurd hlookup hold
    | stay | answeredDefault | answered | missed | joined | shared | began | dialed | abandoned
    | gaveUp | left | kept | released => exact absurd hlookup hold

theorem Transition.inv :
    Inv cacheKey (keyAfter cacheKey keyOf cache call)
      { next with calls := next.calls.set index { call with phase := phase } } := by
  have hevolves := htransition.evolves h hindex
  obtain ⟨hcalls, hconnection, hkey⟩ := htransition.unchanged
  have hpermits := htransition.permits h hindex
  have hdefault := htransition.default h hindex
  have hentries := htransition.entries h hindex
  have hvalues := htransition.values h hindex
  have hkeys : ∀ cell < cache.cells.length, keyAfter cacheKey keyOf cache call cell = keyOf cell :=
    fun cell hlt => keyAfter_of_lt hlt
  rw [hcalls]
  refine ⟨?_, hdefault, hentries, hvalues, ?_, ?_, ?_, fun key cell hlookup hvalue =>
    htransition.tended h hindex key hlookup hvalue⟩
  · rw [hkey, hconnection]
    exact h.defaultKey
  · intro other holder hother
    rcases Interleaving.getElem?_set_cases hother with ⟨rfl, rfl⟩ | ⟨-, hother⟩
    · exact (htransition.callInv h hindex).with_calls _
    · exact ((h.call other holder hother).mono hevolves hkeys).with_calls _
  · intro other holder cell hother hdialing
    rcases Interleaving.getElem?_set_cases hother with ⟨rfl, rfl⟩ | ⟨hne, hother⟩
    · exact (hpermits.1 cell hdialing).1
    · exact hpermits.2 other holder cell hne hother hdialing
  · intro first second firstCall secondCall cell hfirst hsecond hdialing hdialing'
    rcases Interleaving.getElem?_set_cases hfirst with ⟨hindex', rfl⟩ | ⟨hne, hfirst'⟩ <;>
      rcases Interleaving.getElem?_set_cases hsecond with ⟨hindex'', rfl⟩ | ⟨hne', hsecond'⟩
    · exact hindex'.trans hindex''.symm
    · exact absurd hdialing' ((hpermits.1 cell hdialing).2 second secondCall hne' hsecond')
    · exact absurd hdialing ((hpermits.1 cell hdialing').2 first firstCall hne hfirst')
    · exact h.unique first second firstCall secondCall cell hfirst' hsecond' hdialing hdialing'

end Step

/-! ## Every run -/

theorem inv_new (defaultConnection : ServerConnection) :
    Inv cacheKey (fun _ => cacheKey defaultConnection.address) (new cacheKey defaultConnection) := by
  have hlookup : ∀ key cell, (new cacheKey defaultConnection).servers.lookup key = some cell →
      key = cacheKey defaultConnection.address ∧ cell = 0 := by
    intro key cell hlookup
    have hmem : key ∈ (new cacheKey defaultConnection).servers :=
      Finmap.mem_of_lookup_eq_some hlookup
    obtain rfl := Finmap.mem_singleton _ _ _ |>.mp hmem
    exact ⟨rfl, (Option.some.inj ((Finmap.lookup_singleton_eq ..).symm.trans hlookup)).symm⟩
  refine ⟨rfl, ⟨0, Finmap.lookup_singleton_eq, rfl⟩, fun key cell h => ?_, ?_, by simp [new],
    by simp [new], by simp [new], fun key cell h hvalue => ?_⟩
  · obtain ⟨rfl, rfl⟩ := hlookup key cell h
    exact ⟨Nat.zero_lt_one, rfl⟩
  · intro cell connection hvalue
    cases cell with
    | zero =>
        cases hvalue
        rfl
    | succ cell => cases hvalue
  · obtain ⟨-, rfl⟩ := hlookup key cell h
    cases hvalue

theorem Inv.get (h : Inv cacheKey keyOf cache) (address : String) :
    Inv cacheKey keyOf (step cacheKey cache (.get address)) := by
  have hnew : CallInv cacheKey keyOf cache { address := address } :=
    ⟨by simp [Phase.cell?], by simp [Phase.result], by simp [Phase.cell?]⟩
  have hcases : ∀ (other : ℕ) holder cell, (step cacheKey cache (.get address)).calls[other]? =
      some holder → holder.phase = .dialing cell → cache.calls[other]? = some holder := by
    intro other holder cell hother hdialing
    rcases Interleaving.getElem?_concat_cases hother with hother | ⟨-, rfl⟩
    · exact hother
    · cases hdialing
  refine ⟨h.defaultKey, h.default, h.entry, h.value, ?_, ?_, ?_, ?_⟩
  · intro other holder hother
    rcases Interleaving.getElem?_concat_cases hother with hother | ⟨-, rfl⟩
    · exact (h.call other holder hother).with_calls _
    · exact hnew.with_calls _
  · intro other holder cell hother hdialing
    exact h.permit other holder cell (hcases other holder cell hother hdialing) hdialing
  · intro first second firstCall secondCall cell hfirst hsecond hdialing hdialing'
    exact h.unique first second firstCall secondCall cell
      (hcases first firstCall cell hfirst hdialing)
      (hcases second secondCall cell hsecond hdialing') hdialing hdialing'
  · intro key cell hlookup hvalue
    obtain ⟨holder, hmem, htended⟩ := h.tended key cell hlookup hvalue
    exact ⟨holder, List.mem_append_left _ hmem, htended⟩

/-- Eviction erases an entry that is not the default one. -/
theorem evict_cases (hdefault : cache.defaultKey = cacheKey cache.defaultConnection.address)
    (address : String) :
    (cache.evict cacheKey address).2 = cache ∨ (cacheKey address ≠ cache.defaultKey ∧
      (cache.evict cacheKey address).2 =
        { cache with servers := cache.servers.erase (cacheKey address) }) := by
  unfold evict
  split_ifs with h
  · exact .inl rfl
  · exact .inr ⟨fun heq => h ((isDefaultAddress_iff hdefault).mpr heq), rfl⟩

theorem Inv.evict (h : Inv cacheKey keyOf cache) (address : String) :
    Inv cacheKey keyOf (step cacheKey cache (.evict address)) := by
  change Inv cacheKey keyOf (cache.evict cacheKey address).2
  rcases evict_cases h.defaultKey address with heq | ⟨hne, heq⟩
  · rw [heq]
    exact h
  · rw [heq]
    have hevolves := evolves_erase cache (cacheKey address)
    have hentry : ∀ key cell, (cache.servers.erase (cacheKey address)).lookup key = some cell →
        cache.servers.lookup key = some cell := by
      intro key cell hlookup
      rw [HashMap.lookup_erase_eq] at hlookup
      split_ifs at hlookup
      exact hlookup
    refine ⟨h.defaultKey, ?_, fun key cell hlookup => h.entry key cell (hentry key cell hlookup),
      h.value, fun other holder hother => (h.call other holder hother).mono hevolves
        fun _ _ => rfl, h.permit, h.unique, fun key cell hlookup hvalue =>
          h.tended key cell (hentry key cell hlookup) hvalue⟩
    obtain ⟨cell, hlookup, hvalue⟩ := h.default
    refine ⟨cell, ?_, hvalue⟩
    dsimp only
    rw [HashMap.lookup_erase_eq, if_neg hne.symm]
    exact hlookup

theorem step_perform (hindex : cache.calls[index]? = some call) (action : Action) :
    step cacheKey cache (.perform index action) =
      { (cache.perform cacheKey index call action).2 with
        calls := (cache.perform cacheKey index call action).2.calls.set index
          { call with phase := (cache.perform cacheKey index call action).1 } } := by
  simp only [step, hindex]

theorem Inv.step (h : Inv cacheKey keyOf cache) (event : Event) :
    ∃ keyOf', Inv cacheKey keyOf' (step cacheKey cache event) := by
  cases event with
  | get address => exact ⟨keyOf, h.get address⟩
  | evict address => exact ⟨keyOf, h.evict address⟩
  | perform index action =>
      cases hindex : cache.calls[index]? with
      | none => exact ⟨keyOf, by simpa only [ConnectionCache.step, hindex] using h⟩
      | some call =>
          rw [step_perform hindex]
          exact ⟨_, (perform_transition action).inv h hindex⟩

theorem inv_run (cacheKey : String → Key) (defaultConnection : ServerConnection) (events : List Event) :
    ∃ keyOf, Inv cacheKey keyOf ((new cacheKey defaultConnection).run cacheKey events) :=
  Interleaving.foldl_invariant (motive := fun cache => ∃ keyOf, Inv cacheKey keyOf cache)
    (fun _ event h => h.elim fun _ h => h.step event) ⟨_, inv_new defaultConnection⟩ events

/-- In every interleaving of calls that succeed, fail or are cancelled, an entry of the cache
has a connection for its key, or a call in progress will set it or remove the entry. -/
theorem entry_initialized_or_tended (cacheKey : String → Key)
    (defaultConnection : ServerConnection) (events : List Event) (key : Key) (cell : ℕ)
    (hlookup : ((new cacheKey defaultConnection).run cacheKey events).servers.lookup key =
      some cell) :
    (∃ connection, ((new cacheKey defaultConnection).run cacheKey events).value cell =
        some connection ∧ cacheKey connection.address = key) ∨
      ∃ call ∈ ((new cacheKey defaultConnection).run cacheKey events).calls,
        call.phase.tended = some cell := by
  obtain ⟨keyOf, h⟩ := inv_run cacheKey defaultConnection events
  cases hvalue : ((new cacheKey defaultConnection).run cacheKey events).value cell with
  | none => exact .inr (h.tended key cell hlookup hvalue)
  | some connection =>
      refine .inl ⟨connection, rfl, ?_⟩
      rw [h.value cell connection hvalue]
      exact (h.entry key cell hlookup).2

/-- The call that has inserted the entry is cancelled; the one that waits for it tends it. -/
theorem entry_initialized_or_tended_after_cancel :
    (∃ connection, ((new String.length ⟨"default", 0, true⟩).run String.length
        [.get "a", .perform 0 .look, .perform 0 .orInsert, .get "b", .perform 1 .look,
          .perform 0 .cancel, .perform 0 .dropGuard, .perform 0 .removeUninitialized]).value 1 =
        some connection ∧ String.length connection.address = 1) ∨
      ∃ call ∈ ((new String.length ⟨"default", 0, true⟩).run String.length
        [.get "a", .perform 0 .look, .perform 0 .orInsert, .get "b", .perform 1 .look,
          .perform 0 .cancel, .perform 0 .dropGuard, .perform 0 .removeUninitialized]).calls,
        call.phase.tended = some 1 :=
  entry_initialized_or_tended String.length ⟨"default", 0, true⟩ _ 1 1 (by decide +kernel)

end GoogleCloudRust.ConnectionCache
