import GoogleCloudRust.Verification.LazyTransaction.Leadership

/-! # The life of a lazily started transaction

Nobody waits for a start that is over: an operation that waits either sees the state it
waits on or has a wake-up coming. -/

namespace GoogleCloudRust.LazyTransaction

open TransactionState

variable {options : TransactionOptions} {system : System} {operation after : Operation}
  {state : TransactionState} {index n : ℕ}

structure SystemInv (options : TransactionOptions) (system : System) : Prop where
  notStarted : ∀ other, system.state = .notStarted other → other = options
  starting : ∀ other n, system.state = .starting other n → other = options ∧ n < system.notifies
  started : StartedWithId system.state
  operations : ∀ operation ∈ system.operations, OperationInv system.state operation
  waiting : ∀ operation ∈ system.operations, ∀ n, operation.phase = .waiting n →
    (∃ options, system.state = .starting options n) ∨
      ∃ notifier ∈ system.operations, ∃ continuation, notifier.phase = .notifying n continuation
  elections : Elections system.operations system.notifies

/-! ## Operations that depend on the state -/

/-- Before the start nothing is said about the state. -/
theorem OperationInv.of_notStarted (h : OperationInv (.notStarted options) operation)
    (state : TransactionState) : OperationInv state operation := by
  obtain ⟨phase, elected⟩ := operation
  cases phase with
  | leading n =>
      obtain ⟨-, _, hstate⟩ := h
      cases hstate
  | beginning n =>
      obtain ⟨-, _, hstate⟩ := h
      cases hstate
  | dropping =>
      obtain ⟨_, _, -, hstate⟩ := h
      cases hstate
  | notifying n continuation => exact fun heq => (h heq).elim
  | executing => exact h.elim
  | polling => exact h
  | waiting n => exact h
  | preparing => exact h
  | finished => trivial

/-- During a start only its leader depends on the state. -/
theorem OperationInv.of_starting (h : OperationInv (.starting options n) operation)
    (hother : operation.elected ≠ some n) (state : TransactionState) :
    OperationInv state operation := by
  obtain ⟨phase, elected⟩ := operation
  cases phase with
  | leading m =>
      obtain ⟨helected, _, hstate⟩ := h
      cases hstate
      exact absurd helected hother
  | beginning m =>
      obtain ⟨helected, _, hstate⟩ := h
      cases hstate
      exact absurd helected hother
  | dropping =>
      obtain ⟨m, _, helected, hstate⟩ := h
      cases hstate
      exact absurd helected hother
  | notifying m continuation => exact fun heq => (h heq).elim
  | executing => exact h.elim
  | polling => exact h
  | waiting m => exact h
  | preparing => exact h
  | finished => trivial

theorem mem_set_cases {operations : List Operation} (h : operation ∈ operations.set index after) :
    operation = after ∨ ∃ other, other ≠ index ∧ operations[other]? = some operation := by
  obtain ⟨position, hposition⟩ := List.mem_iff_getElem?.mp h
  obtain ⟨-, rfl⟩ | ⟨hne, hother⟩ := Interleaving.getElem?_set_cases hposition
  · exact .inl rfl
  · exact .inr ⟨position, hne, hother⟩

/-! ## Steps -/

/-- The operation at an index has been stepped. -/
def stepped (system : System) (index : ℕ) (after : Operation) : System :=
  { system with operations := system.operations.set index after }

theorem SystemInv.move (hsystem : SystemInv options system)
    (hindex : system.operations[index]? = some operation) {phase : Phase}
    (hinv : OperationInv system.state { operation with phase := phase })
    (hwaiting : ∀ n, phase = .waiting n → operation.phase = .waiting n ∨
      ∃ options, system.state = .starting options n)
    (hnotifying : ∀ n continuation, operation.phase = .notifying n continuation →
      phase = .notifying n continuation) :
    SystemInv options (stepped system index { operation with phase := phase }) where
  notStarted := hsystem.notStarted
  starting := hsystem.starting
  started := hsystem.started
  operations := by
    intro other hother
    obtain rfl | ⟨position, -, hposition⟩ := mem_set_cases hother
    · exact hinv
    · exact hsystem.operations other (List.mem_of_getElem? hposition)
  waiting := by
    have hkept : ∀ n, (∃ notifier ∈ system.operations, ∃ continuation,
        notifier.phase = .notifying n continuation) →
        ∃ notifier ∈ (stepped system index { operation with phase := phase }).operations,
          ∃ continuation, notifier.phase = .notifying n continuation := by
      intro n h
      refine Interleaving.exists_mem_set hindex h fun ⟨continuation, hold⟩ => ?_
      exact ⟨continuation, hnotifying n continuation hold⟩
    intro other hother n hphase
    obtain rfl | ⟨position, -, hposition⟩ := mem_set_cases hother
    · obtain hbefore | hstate := hwaiting n hphase
      · exact (hsystem.waiting operation (List.mem_of_getElem? hindex) n hbefore).imp_right (hkept n)
      · exact .inl hstate
    · exact (hsystem.waiting other (List.mem_of_getElem? hposition) n hphase).imp_right (hkept n)
  elections := hsystem.elections.set hindex rfl

theorem SystemInv.elect (hsystem : SystemInv options system)
    (hindex : system.operations[index]? = some operation) {other : TransactionOptions}
    {phase : Phase} (hstate : system.state = .notStarted other)
    (helected : operation.elected = none)
    (hpolling : operation.phase = .polling ∨ operation.phase = .preparing)
    (hphase : phase = .leading system.notifies ∨ phase = .beginning system.notifies) :
    SystemInv options (stepped
      { system with
        state := .starting other system.notifies
        notifies := system.notifies + 1 } index ⟨phase, some system.notifies⟩) where
  notStarted := by
    intro later h
    cases h
  starting := by
    intro later n h
    cases h
    exact ⟨hsystem.notStarted _ hstate, Nat.lt_succ_self _⟩
  started := by
    intro selector timestamp h
    cases h
  operations := by
    intro found hfound
    obtain rfl | ⟨position, -, hposition⟩ := mem_set_cases hfound
    · obtain rfl | rfl := hphase
      · exact ⟨rfl, other, rfl⟩
      · exact ⟨rfl, other, rfl⟩
    · have hbefore := hsystem.operations found (List.mem_of_getElem? hposition)
      rw [hstate] at hbefore
      exact hbefore.of_notStarted _
  waiting := by
    intro found hfound n hwaiting
    obtain rfl | ⟨position, -, hposition⟩ := mem_set_cases hfound
    · obtain rfl | rfl := hphase
      · cases hwaiting
      · cases hwaiting
    · obtain ⟨_, hstarting⟩ | hnotifier :=
        hsystem.waiting found (List.mem_of_getElem? hposition) n hwaiting
      · rw [hstate] at hstarting
        cases hstarting
      · refine .inr (Interleaving.exists_mem_set hindex hnotifier fun ⟨continuation, hold⟩ => ?_)
        obtain hpoll | hprepare := hpolling
        · rw [hpoll] at hold
          cases hold
        · rw [hprepare] at hold
          cases hold
  elections := hsystem.elections.elect hindex helected rfl

theorem SystemInv.leave (hsystem : SystemInv options system)
    (hindex : system.operations[index]? = some operation) {other : TransactionOptions}
    {continuation : Continuation} (hstate : system.state = .starting other n)
    (helected : operation.elected = some n)
    (hleft : Terminal state ∨ (state = .notStarted other ∧ continuation = .finish))
    (hphase : ∀ n continuation, operation.phase ≠ .notifying n continuation) :
    SystemInv options (stepped { system with state := state } index
      { operation with phase := .notifying n continuation }) where
  notStarted := by
    intro later h
    obtain hterminal | ⟨hnotStarted, -⟩ := hleft
    · change state = _ at h
      rw [h] at hterminal
      exact hterminal.elim
    · obtain rfl := TransactionState.notStarted.inj (hnotStarted.symm.trans h)
      exact (hsystem.starting _ _ hstate).1
  starting := by
    intro later m h
    change state = _ at h
    rw [h] at hleft
    obtain hterminal | ⟨hnotStarted, -⟩ := hleft
    · exact hterminal.elim
    · cases hnotStarted
  started := by
    intro selector timestamp h
    change state = _ at h
    rw [h] at hleft
    obtain hterminal | ⟨hnotStarted, -⟩ := hleft
    · exact hterminal
    · cases hnotStarted
  operations := by
    intro found hfound
    obtain rfl | ⟨position, hne, hposition⟩ := mem_set_cases hfound
    · intro hexecute
      obtain hterminal | ⟨-, hfinish⟩ := hleft
      · exact hterminal
      · rw [hfinish] at hexecute
        cases hexecute
    · have hbefore := hsystem.operations found (List.mem_of_getElem? hposition)
      rw [hstate] at hbefore
      refine hbefore.of_starting (fun hfound => hne ?_) state
      exact hsystem.elections.unique position index n (by rw [electedAt, hposition]; exact hfound)
        (by rw [electedAt, hindex]; exact helected)
  waiting := by
    intro found hfound m hwaiting
    obtain rfl | ⟨position, -, hposition⟩ := mem_set_cases hfound
    · cases hwaiting
    · refine .inr ?_
      obtain ⟨_, hstarting⟩ | hnotifier :=
        hsystem.waiting found (List.mem_of_getElem? hposition) m hwaiting
      · -- The leader that left is the one who wakes them.
        rw [hstate] at hstarting
        cases hstarting
        refine ⟨_, List.mem_set (List.getElem?_eq_some_iff.mp hindex).1 _, continuation, rfl⟩
      · refine Interleaving.exists_mem_set hindex hnotifier fun hnotifies => ?_
        obtain ⟨earlier, hold⟩ := hnotifies
        exact absurd hold (hphase m earlier)
  elections := hsystem.elections.set hindex rfl

/-! ## Waking -/

theorem mem_notifyWaiters {operations : List Operation}
    (h : operation ∈ System.notifyWaiters operations n) :
    (∃ before ∈ operations, before.phase = .waiting n ∧
      operation = { before with phase := .polling }) ∨
      (operation ∈ operations ∧ operation.phase ≠ .waiting n) := by
  obtain ⟨before, hmem, rfl⟩ := List.mem_map.mp h
  split_ifs with hwaiting
  · exact .inl ⟨before, hmem, hwaiting, rfl⟩
  · exact .inr ⟨hmem, hwaiting⟩

/-- Only those that wait for this start are woken. -/
theorem mem_notifyWaiters_of_ne {operations : List Operation} (h : operation ∈ operations)
    (hphase : operation.phase ≠ .waiting n) : operation ∈ System.notifyWaiters operations n :=
  List.mem_map.mpr ⟨operation, h, if_neg hphase⟩

theorem OperationInv.notifyWaiters {operations : List Operation}
    (h : ∀ operation ∈ operations, OperationInv state operation) :
    ∀ operation ∈ System.notifyWaiters operations n, OperationInv state operation := by
  intro operation hoperation
  obtain ⟨before, hmem, hwaiting, rfl⟩ | ⟨hmem, -⟩ := mem_notifyWaiters hoperation
  · have hbefore := h before hmem
    simp only [OperationInv, hwaiting] at hbefore
    exact hbefore
  · exact h operation hmem

theorem getElem?_notifyWaiters {operations : List Operation} (m : ℕ)
    (hindex : operations[index]? = some operation)
    (hphase : ∀ n, operation.phase ≠ .waiting n) :
    (System.notifyWaiters operations m)[index]? = some operation := by
  rw [System.notifyWaiters, List.getElem?_map, hindex, Option.map_some, if_neg (hphase m)]

theorem SystemInv.wake (hsystem : SystemInv options system)
    (hindex : system.operations[index]? = some operation) {continuation : Continuation}
    (hphase : operation.phase = .notifying n continuation)
    (hinv : OperationInv system.state { operation with phase := continuation.phase }) :
    SystemInv options (stepped
      { system with operations := System.notifyWaiters system.operations n } index
      { operation with phase := continuation.phase }) := by
  have hat : (System.notifyWaiters system.operations n)[index]? = some operation :=
    getElem?_notifyWaiters n hindex (by simp [hphase])
  have hoperations := @OperationInv.notifyWaiters _ n _ hsystem.operations
  exact {
    notStarted := hsystem.notStarted
    starting := hsystem.starting
    started := hsystem.started
    operations := by
      intro found hfound
      obtain rfl | ⟨position, -, hposition⟩ := mem_set_cases hfound
      · exact hinv
      · exact hoperations found (List.mem_of_getElem? hposition)
    waiting := by
      intro found hfound m hwaiting
      obtain rfl | ⟨position, -, hposition⟩ := mem_set_cases hfound
      · cases continuation with
        | execute => cases hwaiting
        | finish => cases hwaiting
      · obtain ⟨before, -, -, rfl⟩ | ⟨hmem, hne⟩ :=
          mem_notifyWaiters (List.mem_of_getElem? hposition)
        · cases hwaiting
        · refine (hsystem.waiting found hmem m hwaiting).imp_right fun hnotifier => ?_
          refine Interleaving.exists_mem_set hat ?_ fun ⟨later, hold⟩ => ?_
          · obtain ⟨notifier, hnotifier, later, hlater⟩ := hnotifier
            exact ⟨notifier, mem_notifyWaiters_of_ne hnotifier (by simp [hlater]), later, hlater⟩
          · -- Whoever waits for this start has just been woken.
            obtain ⟨rfl, -⟩ := Phase.notifying.inj (hphase.symm.trans hold)
            exact absurd hwaiting hne
    elections := by
      refine Elections.set (hsystem.elections.congr fun other => ?_) hat rfl
      exact electedAt_notifyWaiters n other }

/-! ## Runs -/

/-- A statement or commit begins. -/
theorem SystemInv.concat (hsystem : SystemInv options system) {phase : Phase}
    (hphase : phase = .polling ∨ phase = .preparing) :
    SystemInv options { system with operations := system.operations ++ [{ phase := phase }] } where
  notStarted := hsystem.notStarted
  starting := hsystem.starting
  started := hsystem.started
  operations := by
    intro found hfound
    obtain hmem | hnew := List.mem_append.mp hfound
    · exact hsystem.operations found hmem
    · obtain rfl := List.mem_singleton.mp hnew
      obtain rfl | rfl := hphase
      · rfl
      · rfl
  waiting := by
    intro found hfound n hwaiting
    obtain hmem | hnew := List.mem_append.mp hfound
    · refine (hsystem.waiting found hmem n hwaiting).imp_right ?_
      rintro ⟨notifier, hnotifier, continuation⟩
      exact ⟨notifier, List.mem_append_left _ hnotifier, continuation⟩
    · obtain rfl := List.mem_singleton.mp hnew
      obtain rfl | rfl := hphase
      · cases hwaiting
      · cases hwaiting
  elections := hsystem.elections.congr (electedAt_concat phase)

theorem step_perform (hindex : system.operations[index]? = some operation)
    (action : System.Action) :
    system.step (.perform index action) =
      stepped (system.perform operation action).2 index (system.perform operation action).1 := by
  rw [System.step, hindex]
  rfl

theorem step_perform_none (hindex : system.operations[index]? = none)
    (action : System.Action) : system.step (.perform index action) = system := by
  rw [System.step, hindex]

theorem SystemInv.transition (hsystem : SystemInv options system)
    (hindex : system.operations[index]? = some operation) {next : System}
    (h : Transition system operation after next) :
    SystemInv options (stepped next index after) := by
  cases h with
  | move phase hinv hwaiting hnotifying => exact hsystem.move hindex hinv hwaiting hnotifying
  | elect other phase hstate helected hpolling hphase =>
      exact hsystem.elect hindex hstate helected hpolling hphase
  | leave other n state continuation hstate helected hleft hphase =>
      exact hsystem.leave hindex hstate helected
        (hleft.imp_right fun ⟨hstate, _, _, hfinish⟩ => ⟨hstate, hfinish⟩) hphase
  | wake n continuation hphase hinv => exact hsystem.wake hindex hphase hinv

theorem SystemInv.transitions (hsystem : SystemInv options system)
    (hindex : system.operations[index]? = some operation) (action : System.Action) :
    Transition system operation (system.perform operation action).1
      (system.perform operation action).2 :=
  perform_transition hsystem.started
    (hsystem.operations operation (List.mem_of_getElem? hindex)) action

theorem SystemInv.step (hsystem : SystemInv options system) (event : System.Event) :
    SystemInv options (system.step event) := by
  cases event with
  | statement => exact hsystem.concat (.inl rfl)
  | commit => exact hsystem.concat (.inr rfl)
  | perform index action =>
      cases hindex : system.operations[index]? with
      | none =>
          rw [step_perform_none hindex]
          exact hsystem
      | some operation =>
          rw [step_perform hindex]
          exact hsystem.transition hindex (hsystem.transitions hindex action)

theorem systemInv_start (options : TransactionOptions) (isEmulator : Bool) :
    SystemInv options (.start options isEmulator) where
  notStarted := by
    intro other h
    cases h
    rfl
  starting := by
    intro other n h
    cases h
  started := by
    intro selector timestamp h
    cases h
  operations := by simp [System.start]
  waiting := by simp [System.start]
  elections := ⟨by simp [System.start], by simp [electedAt, System.start],
    by simp [electedAt, System.start]⟩

theorem SystemInv.run (hsystem : SystemInv options system) (events : List System.Event) :
    SystemInv options (system.run events) :=
  Interleaving.foldl_invariant (fun _ event h => h.step event) hsystem events

/-! ## How the state changes -/

/-- One step either keeps the state, begins a start or ends one. -/
inductive StateStep (options : TransactionOptions) (system : System) : System.Event → System → Prop
  | same {event : System.Event} {next : System} (hstate : next.state = system.state)
      (hnotifies : next.notifies = system.notifies) : StateStep options system event next
  | elect {index : ℕ} {action : System.Action} {next : System}
      (hstate : system.state = .notStarted options)
      (hnext : next.state = .starting options system.notifies)
      (hnotifies : next.notifies = system.notifies + 1)
      (helected : electedAt next.operations index = some system.notifies) :
      StateStep options system (.perform index action) next
  | leave {index n : ℕ} {action : System.Action} {next : System}
      (hstate : system.state = .starting options n)
      (helected : electedAt system.operations index = some n)
      (hnext : Terminal next.state ∨ (next.state = .notStarted options ∧
        options.mode ≠ some .readWrite ∧
        ∃ operation, system.operations[index]? = some operation ∧ operation.phase = .dropping)) :
      StateStep options system (.perform index action) next

theorem SystemInv.stateStep (hsystem : SystemInv options system) (event : System.Event) :
    StateStep options system event (system.step event) := by
  cases event with
  | statement => exact .same rfl rfl
  | commit => exact .same rfl rfl
  | perform index action =>
      cases hindex : system.operations[index]? with
      | none =>
          rw [step_perform_none hindex]
          exact .same rfl rfl
      | some operation =>
          rw [step_perform hindex]
          generalize hperform : system.perform operation action = performed
          have htransition := hsystem.transitions hindex action
          rw [hperform] at htransition
          obtain ⟨after, next⟩ := performed
          cases htransition with
          | move phase hinv hwaiting hnotifying => exact .same rfl rfl
          | wake n continuation hphase hinv => exact .same rfl rfl
          | elect other phase hstate helected hpolling hphase =>
              obtain rfl := hsystem.notStarted other hstate
              exact .elect hstate rfl rfl (by rw [stepped, electedAt_set hindex, if_pos rfl])
          | leave other n state continuation hstate helected hleft hphase =>
              obtain ⟨rfl, -⟩ := hsystem.starting other n hstate
              refine .leave hstate (by rw [electedAt, hindex]; exact helected) ?_
              exact hleft.imp_right fun h => ⟨h.1, h.2.1, operation, hindex, h.2.2.1⟩

/-- A transaction that has started or failed stays as it is. -/
theorem SystemInv.run_terminal (hsystem : SystemInv options system) (h : Terminal system.state)
    (events : List System.Event) : (system.run events).state = system.state := by
  induction events generalizing system with
  | nil => rfl
  | cons event events ih =>
      have hstep : (system.step event).state = system.state := by
        cases hsystem.stateStep event with
        | same hstate hnotifies => exact hstate
        | elect hstate hnext hnotifies helected =>
            rw [hstate] at h
            exact h.elim
        | leave hstate helected hnext =>
            rw [hstate] at h
            exact h.elim
      have hlater := ih (hsystem.step event) (by rw [hstep]; exact h)
      exact hlater.trans hstep

theorem SystemInv.unique_leader (hsystem : SystemInv options system) (n : ℕ)
    (hn : n < system.notifies) : ∃! index, electedAt system.operations index = some n := by
  obtain ⟨index, hindex⟩ := hsystem.elections.elected n hn
  exact ⟨index, hindex, fun other hother => hsystem.elections.unique other index n hother hindex⟩

theorem SystemInv.step_starting (hsystem : SystemInv options system) (event : System.Event)
    (other : TransactionOptions) (n : ℕ)
    (h : (system.step event).state = .starting other n) :
    system.state = .starting other n ∨
      (system.state = .notStarted other ∧ n = system.notifies ∧
        (system.step event).notifies = n + 1 ∧
        ∃ index action, event = .perform index action ∧
          electedAt (system.step event).operations index = some n) := by
  cases hsystem.stateStep event with
  | same hstate hnotifies => exact .inl (hstate.symm.trans h)
  | @elect index action _ hstate hnext hnotifies helected =>
      obtain ⟨rfl, rfl⟩ := TransactionState.starting.inj (hnext.symm.trans h)
      exact .inr ⟨hstate, rfl, hnotifies, index, action, rfl, helected⟩
  | leave hstate helected hnext =>
      rw [h] at hnext
      obtain hterminal | ⟨hnotStarted, -⟩ := hnext
      · exact hterminal.elim
      · cases hnotStarted

/-- Only a cancelled leader of a transaction that is not read-write gives up the start. -/
theorem SystemInv.step_notStarted (hsystem : SystemInv options system) (event : System.Event)
    (other : TransactionOptions) (h : (system.step event).state = .notStarted other) :
    system.state = .notStarted other ∨
      (options.mode ≠ some .readWrite ∧
        ∃ n index action operation, system.state = .starting other n ∧
          event = .perform index action ∧ system.operations[index]? = some operation ∧
          operation.phase = .dropping ∧ operation.elected = some n) := by
  cases hsystem.stateStep event with
  | same hstate hnotifies => exact .inl (hstate.symm.trans h)
  | elect hstate hnext hnotifies helected =>
      rw [h] at hnext
      cases hnext
  | @leave index n action _ hstate helected hnext =>
      obtain hterminal | ⟨hnotStarted, hmode, operation, hindex, hphase⟩ := hnext
      · rw [h] at hterminal
        exact hterminal.elim
      · obtain rfl := TransactionState.notStarted.inj (hnotStarted.symm.trans h)
        rw [electedAt, hindex, Option.bind_some] at helected
        exact .inr ⟨hmode, n, index, action, operation, hstate, rfl, hindex, hphase, helected⟩

/-- Afterwards nobody waits for the start that is over. -/
theorem step_notifyWaiters {continuation : Continuation}
    (hindex : system.operations[index]? = some operation)
    (hphase : operation.phase = .notifying n continuation) :
    ∀ other ∈ (system.step (.perform index .notifyWaiters)).operations,
      other.phase ≠ .waiting n := by
  rw [step_perform hindex]
  unfold System.perform
  rw [hphase]
  simp only [stepped]
  intro other hother
  obtain rfl | ⟨position, -, hposition⟩ := mem_set_cases hother
  · cases continuation with
    | execute => simp [Continuation.phase]
    | finish => simp [Continuation.phase]
  · obtain ⟨before, -, -, rfl⟩ | ⟨-, hne⟩ := mem_notifyWaiters (List.mem_of_getElem? hposition)
    · simp
    · exact hne

/-- The operation begins the transaction, or has been cancelled while it did. -/
def Operation.Begins (operation : Operation) : Prop :=
  (∃ n, operation.phase = .leading n ∨ operation.phase = .beginning n) ∨
    operation.phase = .dropping

theorem OperationInv.of_begins (h : OperationInv state operation) (hbegins : operation.Begins) :
    ∃ n options, operation.elected = some n ∧ state = .starting options n := by
  obtain ⟨n, hleading | hbeginning⟩ | hdropping := hbegins
  · simp only [OperationInv, hleading] at h
    exact ⟨n, h.2.choose, h.1, h.2.choose_spec⟩
  · simp only [OperationInv, hbeginning] at h
    exact ⟨n, h.2.choose, h.1, h.2.choose_spec⟩
  · simp only [OperationInv, hdropping] at h
    exact h

/-- Two operations never begin the transaction at the same time. -/
theorem SystemInv.begins_unique (hsystem : SystemInv options system) {other : ℕ}
    {operation' : Operation} (hindex : system.operations[index]? = some operation)
    (hother : system.operations[other]? = some operation') (hbegins : operation.Begins)
    (hbegins' : operation'.Begins) : index = other := by
  obtain ⟨n, _, helected, hstate⟩ :=
    (hsystem.operations operation (List.mem_of_getElem? hindex)).of_begins hbegins
  obtain ⟨m, _, helected', hstate'⟩ :=
    (hsystem.operations operation' (List.mem_of_getElem? hother)).of_begins hbegins'
  obtain ⟨-, rfl⟩ := TransactionState.starting.inj (hstate.symm.trans hstate')
  exact hsystem.elections.unique index other n (by rw [electedAt, hindex]; exact helected)
    (by rw [electedAt, hother]; exact helected')

/-- However statements, commits and cancellations interleave: every entry into `Starting`
creates a `Notify` of its own and has one leader; a start that has ended stays as it ended,
unless its cancelled leader gives it up, which a read-write transaction never does; and who
waits for a start either sees it or is about to be woken. -/
theorem run_lazyStart (options : TransactionOptions) (isEmulator : Bool)
    (events : List System.Event) :
    let system := (System.start options isEmulator).run events
    (∀ event other n, (system.step event).state = .starting other n →
      system.state = .starting other n ∨
        (system.state = .notStarted other ∧ n = system.notifies ∧
          (system.step event).notifies = n + 1 ∧
          ∃ index action, event = .perform index action ∧
            electedAt (system.step event).operations index = some n)) ∧
    (∀ n < system.notifies, ∃! index, electedAt system.operations index = some n) ∧
    (∀ (index other : ℕ) operation operation', system.operations[index]? = some operation →
      system.operations[other]? = some operation' → operation.Begins → operation'.Begins →
      index = other) ∧
    (∀ selector timestamp, system.state = .started selector timestamp →
      (∃ id, selector = .id id) ∧
        ∀ later, (system.run later).state = .started selector timestamp) ∧
    (∀ failure, system.state = .failed failure →
      ∀ later, (system.run later).state = .failed failure) ∧
    (system.state = .firstStatementFailed →
      ∀ later, (system.run later).state = .firstStatementFailed) ∧
    (∀ event other, (system.step event).state = .notStarted other →
      system.state = .notStarted other ∨
        (options.mode ≠ some .readWrite ∧
          ∃ n index action operation, system.state = .starting other n ∧
            event = .perform index action ∧ system.operations[index]? = some operation ∧
            operation.phase = .dropping ∧ operation.elected = some n)) ∧
    (∀ operation ∈ system.operations, ∀ n, operation.phase = .waiting n →
      (∃ options, system.state = .starting options n) ∨
        ∃ notifier ∈ system.operations, ∃ continuation,
          notifier.phase = .notifying n continuation) ∧
    (∀ (index : ℕ) operation n continuation, system.operations[index]? = some operation →
      operation.phase = .notifying n continuation →
      ∀ other ∈ (system.step (.perform index .notifyWaiters)).operations,
        other.phase ≠ .waiting n) := by
  intro system
  have hsystem : SystemInv options system := (systemInv_start options isEmulator).run events
  refine ⟨hsystem.step_starting, hsystem.unique_leader, ?_, ?_, ?_, ?_,
    hsystem.step_notStarted, hsystem.waiting, ?_⟩
  · intro index other operation operation' hindex hother hbegins hbegins'
    exact hsystem.begins_unique hindex hother hbegins hbegins'
  · intro selector timestamp hstate
    have hid := hsystem.started selector timestamp hstate
    refine ⟨hid, fun later => ?_⟩
    exact (hsystem.run_terminal (by rw [hstate]; exact hid) later).trans hstate
  · intro failure hstate later
    exact (hsystem.run_terminal (by rw [hstate]; trivial) later).trans hstate
  · intro hstate later
    exact (hsystem.run_terminal (by rw [hstate]; trivial) later).trans hstate
  · intro index operation n continuation hindex hphase
    exact step_notifyWaiters hindex hphase

end GoogleCloudRust.LazyTransaction
