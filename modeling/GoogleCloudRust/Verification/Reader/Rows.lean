import GoogleCloudRust.Library.Interleaving
import GoogleCloudRust.Model.Reader
import Mathlib.Tactic.Ring

/-! # The rows a reader delivers

The offset of the reader is the place of the first row it has not delivered, in every state and
wherever a call of `next` is dropped. -/

namespace GoogleCloudRust.BigQuery.Reader

open Gax

variable {Row : Type} {rows : List Row} {reader reader' : Reader Row}

/-! ## What an event can do -/

/-- The value ends the reader: it is not a response. -/
def IsLast : Option (Except Error (ReadRowsResponse Row)) → Prop
  | some (.ok _) => False
  | _ => True

inductive Handled (rows : List Row) (reader : Reader Row) : Reader Row → Prop
  | idle : Handled rows reader reader
  | called (calling : Bool) : Handled rows reader { reader with calling }
  | finished (err : Option Error) (hstate : reader.state = .terminated err) :
      Handled rows reader ({ reader with state := .terminated none }.returns (err.map .error))
  | connected (offset : ℤ) (retryState : RetryState)
      (hstate : reader.state = .connecting offset retryState) (hoffset : 0 ≤ offset) :
      Handled rows reader
        { reader with state := .reading offset (some retryState) ⟨offset.toNat⟩ }
  | failed (offset : ℤ) (retryState : RetryState) (err : Error) (time : FailureTime)
      (hstate : reader.state = .connecting offset retryState ∨
        ∃ current stream, reader.state = .reading offset current stream ∧
          (current = some retryState ∨ current = none ∧ retryState.attemptCount = 0)) :
      Handled rows reader (checkTerminated
        { reader with
          state := reader.handleError offset retryState err time
          failures := reader.failures + 1 })
  | slept (offset : ℤ) (retryState : RetryState) (deadline : ℕ)
      (hstate : reader.state = .backoff offset retryState deadline) :
      Handled rows reader { reader with state := .connecting offset retryState }
  | message (offset : ℤ) (retryState : Option RetryState) (stream : ReadStream) (rowCount : ℕ)
      (hstate : reader.state = .reading offset retryState stream)
      (hle : stream.position + rowCount ≤ rows.length) :
      Handled rows reader
        ({ reader with
           state := .reading (offset + rowCount) none ⟨stream.position + rowCount⟩
           failures := 0 }.returns
          (some (.ok ⟨rowCount, (rows.drop stream.position).take rowCount⟩)))
  | streamEnded (offset : ℤ) (retryState : Option RetryState) (stream : ReadStream)
      (hstate : reader.state = .reading offset retryState stream) :
      Handled rows reader
        ({ reader with state := .terminated none, ended := some stream.position }.returns none)

theorem checkTerminated_of_terminated {err : Option Error}
    (h : reader.state = .terminated err) : reader.checkTerminated =
      { reader with state := .terminated none }.returns (err.map .error) := by
  rw [checkTerminated, h]

theorem handled_checkTerminated (rows : List Row) (reader : Reader Row) :
    Handled rows reader reader.checkTerminated := by
  unfold checkTerminated
  split
  case h_1 err hstate => exact .finished err hstate
  case h_2 => exact .idle

theorem handled_advance (rows : List Row) (reader : Reader Row) (outcome : Outcome) :
    Handled rows reader (reader.advance rows outcome) := by
  unfold advance
  fun_cases step rows reader outcome with
  | case1 offset retryState hstate hoffset => exact .connected offset retryState hstate hoffset
  | case2 => exact handled_checkTerminated rows reader
  | case3 offset retryState err time hstate =>
    exact .failed offset retryState err time (.inl hstate)
  | case4 offset retryState deadline hstate => exact .slept offset retryState deadline hstate
  | case5 offset retryState stream rowCount hstate hle =>
    exact .message offset retryState stream rowCount hstate hle
  | case6 => exact handled_checkTerminated rows reader
  | case7 offset retryState stream err time hstate =>
    refine .failed offset _ err time (.inr ⟨retryState, stream, hstate, ?_⟩)
    cases retryState with
    | none => exact .inr ⟨rfl, rfl⟩
    | some retryState => exact .inl rfl
  | case8 offset retryState stream hstate => exact .streamEnded offset retryState stream hstate
  | case9 => exact handled_checkTerminated rows reader

theorem handled_handle (rows : List Row) (reader : Reader Row) (event : Event) :
    Handled rows reader (reader.handle rows event) := by
  cases event with
  | call =>
    rw [handle]
    split
    · exact .idle
    · unfold checkTerminated
      split
      case h_1 err hstate => exact .finished err hstate
      case h_2 => exact .called true
  | drop => exact .called false
  | resume outcome =>
    rw [handle]
    split
    · exact handled_advance rows reader outcome
    · exact .idle

/-- A failure ends the reader or makes it wait, with one more attempt counted. -/
theorem handleError_cases (reader : Reader Row) (offset : ℤ) (retryState : RetryState)
    (err : Error) (time : FailureTime) :
    (∃ e, reader.handleError offset retryState err time = .terminated (some e)) ∨
    ∃ deadline e,
      reader.retryPolicy.onError { retryState with attemptCount := retryState.attemptCount + 1 }
        time.now err = .continue e ∧
      reader.handleError offset retryState err time = .backoff offset
        { retryState with attemptCount := retryState.attemptCount + 1 } deadline := by
  unfold handleError
  dsimp only
  split
  case h_1 e _ => exact .inl ⟨e, rfl⟩
  case h_2 e _ => exact .inl ⟨e, rfl⟩
  case h_3 e hcontinue =>
    split
    · exact .inl ⟨.exhausted e, rfl⟩
    · exact .inr ⟨_, e, hcontinue, rfl⟩

/-! ## Where the reader is -/

def deliveredRows (reader : Reader Row) : List Row :=
  reader.delivered.flatMap ReadRowsResponse.rows

/-- The offset kept in a state, after `count` delivered rows. -/
def AtOffset (initial : ℤ) (count : ℕ) : ReaderState → Prop
  | .connecting offset _ | .backoff offset _ _ => offset = initial + count
  | .reading offset _ stream =>
    offset = initial + count ∧ 0 ≤ initial ∧ stream.position = initial.toNat + count
  | .terminated _ => True

structure Placed (rows : List Row) (initial : ℤ) (reader : Reader Row) : Prop where
  rowCount : ∀ response ∈ reader.delivered, response.rowCount = response.rows.length
  rows_eq : reader.deliveredRows = (rows.drop initial.toNat).take reader.deliveredRows.length
  nonneg : reader.deliveredRows ≠ [] → 0 ≤ initial
  atOffset : AtOffset initial reader.deliveredRows.length reader.state
  ended : ∀ position, reader.ended = some position →
    position = initial.toNat + reader.deliveredRows.length

theorem delivered_returns_ok (response : ReadRowsResponse Row) :
    (reader.returns (some (.ok response))).delivered = reader.delivered ++ [response] := by
  simp [delivered, returns]

theorem delivered_returns_last {value : Option (Except Error (ReadRowsResponse Row))}
    (h : IsLast value) : (reader.returns value).delivered = reader.delivered := by
  rcases value with _ | (e | response)
  · simp [delivered, returns]
  · simp [delivered, returns]
  · exact h.elim

theorem isLast_of_ne {value : Option (Except Error (ReadRowsResponse Row))}
    (h : ∀ response, value ≠ some (.ok response)) : IsLast value := by
  rcases value with _ | (e | response)
  · trivial
  · trivial
  · exact h response rfl

theorem isLast_map_error (err : Option Error) :
    IsLast (err.map Except.error : Option (Except Error (ReadRowsResponse Row))) := by
  cases err <;> trivial

variable {initial : ℤ}

theorem placed_new (retryPolicy : RetryPolicy) (start : ℕ) :
    Placed rows initial (new retryPolicy initial start) where
  rowCount response h := by simp [delivered, new] at h
  rows_eq := by simp [deliveredRows, delivered, new]
  nonneg h := by simp [deliveredRows, delivered, new] at h
  atOffset := by simp [AtOffset, deliveredRows, delivered, new]
  ended position h := by simp [new] at h

/-- What delivers nothing only has to keep the offset. -/
theorem Placed.of_delivered_eq (h : Placed rows initial reader)
    (hdelivered : reader'.delivered = reader.delivered)
    (hat : AtOffset initial reader.deliveredRows.length reader'.state)
    (hended : ∀ position, reader'.ended = some position → reader.ended = some position ∨
      position = initial.toNat + reader.deliveredRows.length) :
    Placed rows initial reader' := by
  have hrows : reader'.deliveredRows = reader.deliveredRows := by
    rw [deliveredRows, hdelivered, deliveredRows]
  refine ⟨?_, ?_, ?_, ?_, fun position hposition => ?_⟩
  · rw [hdelivered]
    exact h.rowCount
  · rw [hrows]
    exact h.rows_eq
  · rw [hrows]
    exact h.nonneg
  · rw [hrows]
    exact hat
  · rw [hrows]
    cases hended position hposition with
    | inl hbefore => exact h.ended position hbefore
    | inr heq => exact heq

theorem delivered_checkTerminated (reader : Reader Row) :
    reader.checkTerminated.delivered = reader.delivered := by
  unfold checkTerminated
  split
  case h_1 err hstate => exact delivered_returns_last (isLast_map_error err)
  case h_2 => rfl

theorem ended_checkTerminated (reader : Reader Row) :
    reader.checkTerminated.ended = reader.ended := by
  unfold checkTerminated
  split <;> rfl

theorem Placed.message (h : Placed rows initial reader) {offset : ℤ}
    {retryState : Option RetryState} {stream : ReadStream} {rowCount : ℕ}
    (hstate : reader.state = .reading offset retryState stream)
    (hle : stream.position + rowCount ≤ rows.length) (hended : reader.ended = none) :
    Placed rows initial ({ reader with
      state := .reading (offset + rowCount) none ⟨stream.position + rowCount⟩
      failures := 0 }.returns
        (some (.ok ⟨rowCount, (rows.drop stream.position).take rowCount⟩))) := by
  have hat := h.atOffset
  rw [hstate] at hat
  obtain ⟨hoffset, hnonneg, hposition⟩ := hat
  have hlength : ((rows.drop stream.position).take rowCount).length = rowCount := by
    rw [List.length_take, List.length_drop]
    omega
  set after := ({ reader with
      state := .reading (offset + rowCount) none ⟨stream.position + rowCount⟩
      failures := 0 }.returns
        (some (.ok ⟨rowCount, (rows.drop stream.position).take rowCount⟩))) with hafter
  have hdelivered : after.delivered =
      reader.delivered ++ [⟨rowCount, (rows.drop stream.position).take rowCount⟩] :=
    delivered_returns_ok _
  have hrows : after.deliveredRows =
      reader.deliveredRows ++ (rows.drop stream.position).take rowCount := by
    rw [deliveredRows, hdelivered, List.flatMap_append, deliveredRows]
    simp
  have hcount : after.deliveredRows.length = reader.deliveredRows.length + rowCount := by
    rw [hrows, List.length_append, hlength]
  refine ⟨fun response hmem => ?_, ?_, fun _ => hnonneg, ?_, fun position h' => ?_⟩
  · rw [hdelivered, List.mem_append, List.mem_singleton] at hmem
    cases hmem with
    | inl hmem => exact h.rowCount response hmem
    | inr heq =>
      subst heq
      exact congrArg Nat.cast hlength.symm
  · rw [hcount, hrows, List.take_add, List.drop_drop, ← hposition, ← h.rows_eq]
  · rw [hcount]
    exact ⟨by rw [hoffset]; push_cast; ring, hnonneg, by rw [hposition]; exact Nat.add_assoc _ _ _⟩
  · have : after.ended = none := hended
    rw [this] at h'
    cases h'

theorem Placed.handled (h : Placed rows initial reader) (hhandled : Handled rows reader reader')
    (hended : reader.ended ≠ none → ∃ err, reader.state = .terminated err) :
    Placed rows initial reader' := by
  have hat := h.atOffset
  cases hhandled with
  | idle => exact h
  | called calling => exact h.of_delivered_eq rfl hat fun _ => .inl
  | finished err hstate =>
    exact h.of_delivered_eq (delivered_returns_last (isLast_map_error err)) trivial fun _ => .inl
  | connected offset retryState hstate hoffset =>
    rw [hstate] at hat
    have hnonneg : 0 ≤ initial := by
      by_cases hempty : reader.deliveredRows = []
      · simp only [AtOffset, hempty, List.length_nil, Nat.cast_zero, add_zero] at hat
        omega
      · exact h.nonneg hempty
    refine h.of_delivered_eq rfl ⟨hat, hnonneg, ?_⟩ fun _ => .inl
    simp only [AtOffset] at hat
    dsimp only
    omega
  | failed offset retryState err time hstate =>
    have hoffset : offset = initial + reader.deliveredRows.length := by
      obtain hstate | ⟨current, stream, hstate, -⟩ := hstate
      · rw [hstate] at hat
        exact hat
      · rw [hstate] at hat
        exact hat.1
    refine h.of_delivered_eq (delivered_checkTerminated _) ?_ fun position hposition => ?_
    · obtain ⟨e, hresult⟩ | ⟨deadline, e, -, hresult⟩ :=
        handleError_cases reader offset retryState err time
      · rw [hresult]
        trivial
      · rw [hresult]
        exact hoffset
    · rw [ended_checkTerminated] at hposition
      exact .inl hposition
  | slept offset retryState deadline hstate =>
    rw [hstate] at hat
    exact h.of_delivered_eq rfl hat fun _ => .inl
  | message offset retryState stream rowCount hstate hle =>
    refine h.message hstate hle ?_
    by_contra hne
    obtain ⟨err, herr⟩ := hended hne
    rw [hstate] at herr
    cases herr
  | streamEnded offset retryState stream hstate =>
    rw [hstate] at hat
    refine h.of_delivered_eq (delivered_returns_last trivial) trivial fun position hposition => ?_
    obtain rfl : stream.position = position := Option.some.inj hposition
    exact .inr hat.2.2

/-! ## What the calls return -/

/-- After its last value the reader returns nothing more, and it has a reason to end. -/
structure Concludes (reader : Reader Row) : Prop where
  quiet : ∀ err, reader.state = .terminated err → err = none
  quieted : ∀ value ∈ reader.returned, IsLast value → reader.state = .terminated none
  ended : reader.ended ≠ none → ∃ err, reader.state = .terminated err
  pairwise : reader.returned.Pairwise fun value later => IsLast value → later = none
  reason : ∀ err, reader.state = .terminated err →
    (∃ e, some (.error e) ∈ reader.returned) ∨ reader.ended ≠ none
  explained : ∀ i : ℕ, reader.returned[i]? = some none →
    (∃ j, j < i ∧ ∃ e, reader.returned[j]? = some (some (.error e))) ∨ reader.ended ≠ none

theorem concludes_new (retryPolicy : RetryPolicy) (start : ℕ) :
    Concludes (new retryPolicy initial start : Reader Row) := by
  constructor <;> simp [new]

/-- The reader stays within its live states. -/
theorem Concludes.of_live (h : Concludes reader) (hreturned : reader'.returned = reader.returned)
    (hended : reader'.ended = reader.ended)
    (hlive : (∀ err, reader.state ≠ .terminated err) ∧ (∀ err, reader'.state ≠ .terminated err) ∨
      reader'.state = reader.state) : Concludes reader' := by
  cases hlive with
  | inr hstate =>
    constructor
    · rw [hstate]
      exact h.quiet
    · rw [hreturned, hstate]
      exact h.quieted
    · rw [hended, hstate]
      exact h.ended
    · rw [hreturned]
      exact h.pairwise
    · rw [hreturned, hended, hstate]
      exact h.reason
    · rw [hreturned, hended]
      exact h.explained
  | inl hlive =>
    have hnone : reader.ended = none := by
      by_contra hne
      obtain ⟨err, herr⟩ := h.ended hne
      exact hlive.1 err herr
    constructor
    · exact fun err herr => absurd herr (hlive.2 err)
    · rw [hreturned]
      exact fun value hmem hlast => absurd (h.quieted value hmem hlast) (hlive.1 none)
    · exact fun hne => absurd (hended.trans hnone) hne
    · rw [hreturned]
      exact h.pairwise
    · exact fun err herr => absurd herr (hlive.2 err)
    · rw [hreturned, hended]
      exact h.explained

/-- The reader returns what ends it: an error, or nothing once it has ended. -/
theorem Concludes.last (h : Concludes reader)
    (value : Option (Except Error (ReadRowsResponse Row))) (hlast : IsLast value)
    (hstate : reader'.state = .terminated none)
    (hreturned : reader'.returned = reader.returned ++ [value])
    (hended : reader.ended ≠ none → reader'.ended ≠ none)
    (hfirst : value ≠ none → ∀ err, reader.state ≠ .terminated err)
    (hreason : value = none →
      (∃ e, some (.error e) ∈ reader.returned) ∨ reader'.ended ≠ none) : Concludes reader' := by
  have hexplained : ∀ i : ℕ, reader'.returned[i]? = some none →
      (∃ j, j < i ∧ ∃ e, reader'.returned[j]? = some (some (.error e))) ∨
        reader'.ended ≠ none := by
    intro i hi
    rw [hreturned] at hi ⊢
    obtain hi | ⟨rfl, hvalue⟩ := Interleaving.getElem?_concat_cases hi
    · refine (h.explained i hi).imp ?_ hended
      rintro ⟨j, hj, e, he⟩
      refine ⟨j, hj, e, ?_⟩
      rw [List.getElem?_append_left (List.getElem?_eq_some_iff.mp he).1, he]
    · refine (hreason hvalue.symm).imp_left ?_
      rintro ⟨e, he⟩
      obtain ⟨j, hj⟩ := List.mem_iff_getElem?.mp he
      have hlt := (List.getElem?_eq_some_iff.mp hj).1
      exact ⟨j, hlt, e, by rw [List.getElem?_append_left hlt, hj]⟩
  refine ⟨?_, fun _ _ _ => hstate, fun _ => ⟨none, hstate⟩, ?_, fun err _ => ?_, hexplained⟩
  · intro err herr
    rw [hstate] at herr
    exact (ReaderState.terminated.inj herr).symm
  · rw [hreturned, List.pairwise_append]
    refine ⟨h.pairwise, List.pairwise_singleton _ _, fun earlier hearlier later hlater hlast' => ?_⟩
    rw [List.mem_singleton.mp hlater]
    by_contra hne
    exact hfirst hne none (h.quieted earlier hearlier hlast')
  · cases value with
    | none =>
      rw [hreturned]
      exact (hreason rfl).imp_left fun ⟨e, he⟩ => ⟨e, List.mem_append_left _ he⟩
    | some result =>
      cases result with
      | ok response => exact hlast.elim
      | error e => exact .inl ⟨e, by simp [hreturned]⟩

/-- A response comes from a live reader and leaves it live. -/
theorem Concludes.response (h : Concludes reader) (response : ReadRowsResponse Row)
    (hlive : ∀ err, reader.state ≠ .terminated err)
    (hlive' : ∀ err, reader'.state ≠ .terminated err)
    (hreturned : reader'.returned = reader.returned ++ [some (.ok response)])
    (hended : reader'.ended = reader.ended) : Concludes reader' := by
  have hbefore : ∀ value ∈ reader.returned, ¬ IsLast value :=
    fun value hmem hlast => hlive none (h.quieted value hmem hlast)
  have hafter : ∀ value ∈ reader'.returned, ¬ IsLast value := by
    intro value hmem
    rw [hreturned, List.mem_append, List.mem_singleton] at hmem
    cases hmem with
    | inl hmem => exact hbefore value hmem
    | inr heq => exact heq ▸ id
  constructor
  · exact fun err herr => absurd herr (hlive' err)
  · exact fun value hmem hlast => absurd hlast (hafter value hmem)
  · intro hne
    obtain ⟨err, herr⟩ := h.ended (hended ▸ hne)
    exact absurd herr (hlive err)
  · refine List.Pairwise.imp_of_mem (fun hmem _ _ hlast => ?_)
      (List.pairwise_of_forall fun _ _ => trivial)
    exact absurd hlast (hafter _ hmem)
  · exact fun err herr => absurd herr (hlive' err)
  · intro i hi
    exact absurd trivial (hafter none (List.mem_of_getElem? hi))

theorem Concludes.handled (h : Concludes reader) (hhandled : Handled rows reader reader') :
    Concludes reader' := by
  cases hhandled with
  | idle => exact h
  | called calling => exact h.of_live rfl rfl (.inr rfl)
  | finished err hstate =>
    have herr := h.quiet err hstate
    subst herr
    exact h.last none trivial rfl rfl id (fun hne => absurd rfl hne) fun _ => h.reason none hstate
  | connected offset retryState hstate hoffset =>
    exact h.of_live rfl rfl (.inl ⟨by simp [hstate], by simp⟩)
  | failed offset retryState err time hstate =>
    have hlive : ∀ err, reader.state ≠ .terminated err := by
      obtain hstate | ⟨current, stream, hstate, -⟩ := hstate <;> simp [hstate]
    obtain ⟨e, hresult⟩ | ⟨deadline, e, -, hresult⟩ :=
      handleError_cases reader offset retryState err time
    · rw [checkTerminated_of_terminated hresult]
      exact h.last (some (.error e)) trivial rfl rfl id (fun _ => hlive) fun hnone => by cases hnone
    · rw [hresult]
      exact h.of_live rfl rfl (.inl ⟨hlive, by simp [checkTerminated]⟩)
  | slept offset retryState deadline hstate =>
    exact h.of_live rfl rfl (.inl ⟨by simp [hstate], by simp⟩)
  | message offset retryState stream rowCount hstate hle =>
    exact h.response _ (by simp [hstate]) (by simp [returns]) rfl rfl
  | streamEnded offset retryState stream hstate =>
    exact h.last none trivial rfl rfl (fun _ => by simp [returns]) (fun hne => absurd rfl hne)
      fun _ => .inr (by simp [returns])

/-! ## How often it fails -/

/-- The attempts counted in a state are the failures since the last response. -/
def Counted (failures : ℕ) : ReaderState → Prop
  | .connecting _ retryState | .backoff _ retryState _ => retryState.attemptCount = failures
  | .reading _ retryState _ =>
    retryState.elim (failures = 0) fun retryState => retryState.attemptCount = failures
  | .terminated _ => True

structure Limited (limit : ℕ) (reader : Reader Row) : Prop where
  policy : ∃ inner : RetryPolicy, reader.retryPolicy = inner.withAttemptLimit limit
  counted : Counted reader.failures reader.state
  live : (∀ err, reader.state ≠ .terminated err) → reader.failures = 0 ∨ reader.failures < limit
  le : reader.failures ≤ max limit 1

variable {limit : ℕ}

theorem limited_new (inner : RetryPolicy) (start : ℕ) :
    Limited limit (new (inner.withAttemptLimit limit) initial start : Reader Row) :=
  ⟨⟨inner, rfl⟩, rfl, fun _ => .inl rfl, Nat.zero_le _⟩

theorem lt_of_onError_continue {inner : RetryPolicy} {retryState : RetryState} {now : ℕ}
    {err e : Error}
    (h : (inner.withAttemptLimit limit).onError retryState now err = .continue e) :
    retryState.attemptCount < limit := by
  simp only [RetryPolicy.withAttemptLimit] at h
  split at h
  · cases h
  · cases h
  · split at h
    · cases h
    · omega

theorem Limited.failed (h : Limited limit reader) {offset : ℤ} {retryState : RetryState}
    (err : Error) (time : FailureTime) (hlive : ∀ err, reader.state ≠ .terminated err)
    (hcount : retryState.attemptCount = reader.failures) :
    Limited limit (checkTerminated
      { reader with
        state := reader.handleError offset retryState err time
        failures := reader.failures + 1 }) := by
  have hle : reader.failures + 1 ≤ max limit 1 := by
    have hlt := h.live hlive
    omega
  obtain ⟨inner, hpolicy⟩ := h.policy
  obtain ⟨e, hresult⟩ | ⟨deadline, e, hcontinue, hresult⟩ :=
    handleError_cases reader offset retryState err time
  · rw [checkTerminated_of_terminated hresult]
    exact ⟨⟨inner, hpolicy⟩, trivial, fun hne => absurd rfl (hne none), hle⟩
  · rw [hpolicy] at hcontinue
    have hlt := lt_of_onError_continue hcontinue
    rw [hresult]
    refine ⟨⟨inner, hpolicy⟩, ?_, fun _ => .inr ?_, hle⟩
    · exact congrArg (· + 1) hcount
    · rw [← hcount]
      exact hlt

theorem Limited.handled (h : Limited limit reader) (hhandled : Handled rows reader reader') :
    Limited limit reader' := by
  have hcounted := h.counted
  cases hhandled with
  | idle => exact h
  | called calling => exact ⟨h.policy, hcounted, h.live, h.le⟩
  | finished err hstate =>
    exact ⟨h.policy, trivial, fun hne => absurd rfl (hne none), h.le⟩
  | connected offset retryState hstate hoffset =>
    rw [hstate] at hcounted
    exact ⟨h.policy, hcounted, fun _ => h.live (by simp [hstate]), h.le⟩
  | failed offset retryState err time hstate =>
    have hlive : ∀ err, reader.state ≠ .terminated err := by
      obtain hstate | ⟨current, stream, hstate, -⟩ := hstate <;> simp [hstate]
    refine h.failed err time hlive ?_
    obtain hstate | ⟨current, stream, hstate, hcurrent⟩ := hstate
    · rw [hstate] at hcounted
      exact hcounted
    · rw [hstate] at hcounted
      obtain rfl | ⟨rfl, hzero⟩ := hcurrent
      · exact hcounted
      · exact hzero.trans (Eq.symm hcounted)
  | slept offset retryState deadline hstate =>
    rw [hstate] at hcounted
    exact ⟨h.policy, hcounted, fun _ => h.live (by simp [hstate]), h.le⟩
  | message offset retryState stream rowCount hstate hle =>
    exact ⟨h.policy, rfl, fun _ => .inl rfl, Nat.zero_le _⟩
  | streamEnded offset retryState stream hstate =>
    exact ⟨h.policy, trivial, fun hne => absurd rfl (hne none), h.le⟩

/-! ## Runs -/

theorem placed_run (retryPolicy : RetryPolicy) (initial : ℤ) (start : ℕ) (rows : List Row)
    (events : List Event) :
    Placed rows initial (run rows (new retryPolicy initial start) events) ∧
      Concludes (run rows (new retryPolicy initial start) events) := by
  refine Interleaving.foldl_invariant
    (motive := fun reader => Placed rows initial reader ∧ Concludes reader)
    (fun reader event h => ?_) ⟨placed_new retryPolicy start, concludes_new retryPolicy start⟩ events
  have hhandled := handled_handle rows reader event
  exact ⟨h.1.handled hhandled h.2.ended, h.2.handled hhandled⟩

theorem limited_run (inner : RetryPolicy) (limit : ℕ) (initial : ℤ) (start : ℕ)
    (rows : List Row) (events : List Event) :
    Limited limit (run rows (new (inner.withAttemptLimit limit) initial start) events) :=
  Interleaving.foldl_invariant
    (fun reader event h => h.handled (handled_handle rows reader event))
    (limited_new inner start) events

theorem Placed.sum_rowCount (h : Placed rows initial reader) :
    (reader.delivered.map ReadRowsResponse.rowCount).sum = reader.deliveredRows.length := by
  have hcount := h.rowCount
  rw [deliveredRows]
  generalize reader.delivered = delivered at hcount
  induction delivered with
  | nil => rfl
  | cons response delivered ih =>
    rw [List.map_cons, List.sum_cons, List.flatMap_cons, List.length_append,
      ih fun other hother => hcount other (List.mem_cons_of_mem _ hother),
      hcount response List.mem_cons_self]
    exact (Nat.cast_add _ _).symm

/-- Every row is delivered once and in order, every request asks for the first row not delivered,
nothing ends the reader without an error but the end of a stream, it stays ended, and with an
attempt limit it ends after so many failures in a row, or after one. -/
theorem run_delivers_rows (retryPolicy : RetryPolicy) (initial : ℤ) (start : ℕ) (rows : List Row)
    (events : List Event) :
    let reader := run rows (new retryPolicy initial start) events
    ((∀ response ∈ reader.delivered, response.rowCount = response.rows.length) ∧
      reader.delivered.flatMap ReadRowsResponse.rows = (rows.drop initial.toNat).take
        (reader.delivered.flatMap ReadRowsResponse.rows).length) ∧
    (∀ offset, reader.state.requestOffset = some offset →
      offset = initial + (reader.delivered.map ReadRowsResponse.rowCount).sum) ∧
    (∀ i : ℕ, reader.returned[i]? = some none →
      (∃ j, j < i ∧ ∃ e, reader.returned[j]? = some (some (.error e))) ∨
      ∃ position, reader.ended = some position ∧ position =
        initial.toNat + (reader.delivered.flatMap ReadRowsResponse.rows).length) ∧
    (∀ (i j : ℕ) value later, i < j → reader.returned[i]? = some value →
      (∀ response, value ≠ some (.ok response)) → reader.returned[j]? = some later →
      later = none) ∧
    ∀ inner limit, retryPolicy = RetryPolicy.withAttemptLimit inner limit →
      reader.failures ≤ max limit 1 ∧
      (max limit 1 ≤ reader.failures → ∃ err, reader.state = .terminated err) := by
  intro reader
  obtain ⟨hplaced, hconcludes⟩ := placed_run retryPolicy initial start rows events
  refine ⟨⟨hplaced.rowCount, hplaced.rows_eq⟩, fun offset hoffset => ?_, fun i hi => ?_,
    fun i j value later hij hi hvalue hj => ?_, ?_⟩
  · rw [hplaced.sum_rowCount]
    have hat := hplaced.atOffset
    unfold ReaderState.requestOffset at hoffset
    split at hoffset
    case h_1 offset' retryState hstate =>
      rw [hstate] at hat
      exact (Option.some.inj hoffset).symm.trans hat
    case h_2 => cases hoffset
  · refine (hconcludes.explained i hi).imp_right fun hended => ?_
    obtain ⟨position, hposition⟩ := Option.ne_none_iff_exists'.mp hended
    exact ⟨position, hposition, hplaced.ended position hposition⟩
  · obtain ⟨hlti, rfl⟩ := List.getElem?_eq_some_iff.mp hi
    obtain ⟨hltj, rfl⟩ := List.getElem?_eq_some_iff.mp hj
    exact List.pairwise_iff_getElem.mp hconcludes.pairwise i j hlti hltj hij (isLast_of_ne hvalue)
  · rintro inner limit rfl
    have hlimited := limited_run inner limit initial start rows events
    refine ⟨hlimited.le, fun hge => ?_⟩
    by_contra hlive
    have hfew : reader.failures = 0 ∨ reader.failures < limit :=
      hlimited.live (by simpa using hlive)
    omega

/-- A policy without attempts still lets the first one fail. -/
theorem one_failure_without_attempts :
    ¬ ∀ (inner : RetryPolicy) (limit : ℕ) (initial : ℤ) (start : ℕ) (rows : List Unit)
      (events : List Event),
      (run rows (new (inner.withAttemptLimit limit) initial start) events).failures ≤ limit := by
  intro h
  have hone : (run ([] : List Unit) (new (alwaysRetry.withAttemptLimit 0) 0 0)
      [.call, .resume (.connectFailed .timeout ⟨0, 0, 0⟩)]).failures = 1 := rfl
  have hle := h alwaysRetry 0 0 0 [] [.call, .resume (.connectFailed .timeout ⟨0, 0, 0⟩)]
  omega

end GoogleCloudRust.BigQuery.Reader
