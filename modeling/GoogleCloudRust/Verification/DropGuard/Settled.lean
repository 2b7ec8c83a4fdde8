import GoogleCloudRust.Verification.TransactionRunner.Attempts
import GoogleCloudRust.Verification.DropGuard.Order

/-! # No transaction is left behind

A disarmed guard has a reason: an abort was recorded, the transaction failed to start, or its commit
or rollback was dispatched. The invariant holds as long as the runner does not commit while a
statement is still starting the transaction, for then the guard is disarmed before the id is known. -/

namespace GoogleCloudRust.ReadWrite.DropGuard

open LazyTransaction (Error TransactionState TransactionOptions TransactionSelector)

variable {system next : System} {index other : ℕ} {id : Bytes}

def Selector.Starting (selector : Selector) : Prop :=
  ∃ options notify, selector = .lazy (.starting options notify)

theorem getIdNoWait_of_starting {selector : Selector} (h : Selector.Starting selector) :
    selector.getIdNoWait = none := by
  obtain ⟨options, notify, rfl⟩ := h
  rfl

theorem not_failed_of_starting {selector : Selector} (h : Selector.Starting selector) :
    ¬selector.Failed := by
  obtain ⟨options, notify, rfl⟩ := h
  exact id

/-- A started transaction has an id. -/
def Selector.WithId : Selector → Prop
  | .fixed selector => ∃ id, selector = .id id
  | .lazy (.started selector _) => ∃ id, selector = .id id
  | .lazy _ => True

/-- The statement at a position starts the transaction. -/
def Leads (system : System) (index : ℕ) : Prop :=
  ∃ statement, system.statements[index]? = some statement ∧ statement.starts = true

/-- A commit or a rollback of the transaction was dispatched. -/
def Closed (system : System) (id : Bytes) : Prop :=
  .commit id ∈ system.dispatched ∨ .rollback id ∈ system.dispatched

/-- The reason for a guard to be disarmed. -/
def Justified (system : System) : Prop :=
  system.transaction.aborted.isSome ∨ system.transaction.selector.Failed ∨
    ∃ id, system.transaction.selector.getIdNoWait = some id ∧ Closed system id

structure Sound (system : System) : Prop where
  shape : Selector.WithId system.transaction.selector
  unique : ∀ i j, Leads system i → Leads system j → i = j
  alone : ∀ i, Leads system i → system.runner ≠ .beginning
  leading : ∀ i, Leads system i → Selector.Starting system.transaction.selector
  beginning : system.runner = .beginning → Selector.Starting system.transaction.selector
  handed : ∀ id ∈ system.handed, system.transaction.selector.getIdNoWait = some id
  disarmed : system.transaction.disarmed = true → Justified system
  idle : system.clones = 0 → system.inFlight = false
  dropped : system.dropped = true → system.runner = .ended ∧ system.clones = 0 ∧
    ∀ id ∈ system.handed, Closed system id ∨ system.transaction.aborted.isSome

/-! ## Steps that leave the selector and the statements alone -/

theorem Closed.mono (h : Closed system id)
    (hdispatched : ∀ rpc ∈ system.dispatched, rpc ∈ next.dispatched) : Closed next id :=
  h.imp (hdispatched _) (hdispatched _)

theorem Justified.mono (h : Justified system)
    (hselector : next.transaction.selector = system.transaction.selector)
    (haborted : system.transaction.aborted.isSome → next.transaction.aborted.isSome)
    (hdispatched : ∀ rpc ∈ system.dispatched, rpc ∈ next.dispatched) : Justified next := by
  unfold Justified
  rw [hselector]
  obtain hrecorded | hfailed | ⟨id, hid, hclosed⟩ := h
  · exact .inl (haborted hrecorded)
  · exact .inr (.inl hfailed)
  · exact .inr (.inr ⟨id, hid, hclosed.mono hdispatched⟩)

theorem leads_congr (hstatements : next.statements = system.statements) (index : ℕ) :
    Leads next index ↔ Leads system index := by
  unfold Leads
  rw [hstatements]

/-- What a step of the runner may change. -/
structure Advances (system next : System) : Prop where
  selector : next.transaction.selector = system.transaction.selector
  statements : next.statements = system.statements
  handed : next.handed = system.handed
  aborted : system.transaction.aborted.isSome → next.transaction.aborted.isSome
  dispatched : ∀ rpc ∈ system.dispatched, rpc ∈ next.dispatched
  disarmed : next.transaction.disarmed = true → system.transaction.disarmed = true ∨ Justified next
  runner : next.runner = .beginning → system.runner = .beginning
  idle : next.clones = 0 → system.inFlight = false
  dropped : next.dropped = true →
    system.dropped = true ∧ next.runner = .ended ∧ next.clones = 0

theorem Sound.advance (h : Sound system) (hnext : Advances system next) : Sound next where
  shape := hnext.selector ▸ h.shape
  unique i j hi hj := h.unique i j ((leads_congr hnext.statements i).mp hi)
    ((leads_congr hnext.statements j).mp hj)
  alone i hi hbeginning :=
    h.alone i ((leads_congr hnext.statements i).mp hi) (hnext.runner hbeginning)
  leading i hi := hnext.selector ▸ h.leading i ((leads_congr hnext.statements i).mp hi)
  beginning hbeginning := hnext.selector ▸ h.beginning (hnext.runner hbeginning)
  handed id hid := hnext.selector ▸ h.handed id (hnext.handed ▸ hid)
  disarmed hdisarmed := (hnext.disarmed hdisarmed).elim
    (fun hbefore => (h.disarmed hbefore).mono hnext.selector hnext.aborted hnext.dispatched)
    fun hnow => hnow
  idle hclones := by
    unfold System.inFlight
    rw [hnext.statements]
    exact hnext.idle hclones
  dropped hdropped := by
    obtain ⟨hbefore, hended, hclones⟩ := hnext.dropped hdropped
    refine ⟨hended, hclones, fun id hid => ?_⟩
    rw [hnext.handed] at hid
    exact ((h.dropped hbefore).2.2 id hid).imp (fun hclosed => hclosed.mono hnext.dispatched)
      hnext.aborted

/-! ## Steps of a statement -/

theorem leads_set {statement : Statement} (hquiet : statement.starts = false)
    (h : Leads (system.setStatement index statement) other) :
    other ≠ index ∧ Leads system other := by
  obtain ⟨found, hfound, hstarts⟩ := h
  obtain ⟨-, rfl⟩ | ⟨hne, hold⟩ := Interleaving.getElem?_set_cases hfound
  · rw [hquiet] at hstarts
    cases hstarts
  · exact ⟨hne, found, hold, hstarts⟩

/-- A statement that does not start the transaction goes on. -/
theorem Sound.setStatement (h : Sound system) {statement : Statement}
    (hquiet : statement.starts = false) (hclones : system.clones ≠ 0) :
    Sound (system.setStatement index statement) where
  shape := h.shape
  unique i j hi hj := h.unique i j (leads_set hquiet hi).2 (leads_set hquiet hj).2
  alone i hi := h.alone i (leads_set hquiet hi).2
  leading i hi := h.leading i (leads_set hquiet hi).2
  beginning := h.beginning
  handed := h.handed
  disarmed := h.disarmed
  idle hzero := absurd hzero hclones
  dropped := h.dropped

/-- A statement that is in flight has a clone. -/
theorem clones_ne_zero (h : Sound system) {statement : Statement}
    (hstatement : system.statements[index]? = some statement)
    (hflight : statement.inFlight = true) : system.clones ≠ 0 := by
  intro hzero
  have hidle := h.idle hzero
  unfold System.inFlight at hidle
  rw [List.any_eq_false] at hidle
  exact hidle statement (List.mem_of_getElem? hstatement) hflight

theorem Sound.record (h : Sound system) (error : Error) :
    Sound (system.access (.recordIfAborted error)) :=
  h.advance {
    selector := recordIfAborted_selector
    statements := rfl
    handed := rfl
    aborted := recordIfAborted_isSome
    dispatched := fun _ hmem => hmem
    disarmed := fun hdisarmed => .inl (by simpa using hdisarmed)
    runner := fun hbeginning => hbeginning
    idle := h.idle
    dropped := fun hdropped =>
      ⟨hdropped, (h.dropped hdropped).1, (h.dropped hdropped).2.1⟩ }

theorem handed_eq_nil (h : Sound system)
    (hid : system.transaction.selector.getIdNoWait = none) : system.handed = [] := by
  cases hhanded : system.handed with
  | nil => rfl
  | cons id rest =>
    have hsome := h.handed id (by simp [hhanded])
    rw [hid] at hsome
    cases hsome

theorem disarmed_aborted (h : Sound system)
    (hid : system.transaction.selector.getIdNoWait = none)
    (hfailed : ¬system.transaction.selector.Failed)
    (hdisarmed : system.transaction.disarmed = true) : system.transaction.aborted.isSome := by
  obtain hrecorded | hfails | ⟨id, hsome, -⟩ := h.disarmed hdisarmed
  · exact hrecorded
  · exact absurd hfails hfailed
  · rw [hid] at hsome
    cases hsome

section NotStarted

variable {options : TransactionOptions}

theorem not_leads_of_notStarted (h : Sound system)
    (hselector : system.transaction.selector = .lazy (.notStarted options)) (i : ℕ) :
    ¬Leads system i := by
  intro hi
  obtain ⟨options', notify, heq⟩ := h.leading i hi
  rw [hselector] at heq
  cases heq

theorem not_beginning_of_notStarted (h : Sound system)
    (hselector : system.transaction.selector = .lazy (.notStarted options)) :
    system.runner ≠ .beginning := by
  intro hbeginning
  obtain ⟨options', notify, heq⟩ := h.beginning hbeginning
  rw [hselector] at heq
  cases heq

theorem disarmed_aborted_of_notStarted (h : Sound system)
    (hselector : system.transaction.selector = .lazy (.notStarted options))
    (hdisarmed : system.transaction.disarmed = true) : system.transaction.aborted.isSome :=
  disarmed_aborted h (by rw [hselector]; rfl) (by rw [hselector]; exact id) hdisarmed

theorem handed_of_notStarted (h : Sound system)
    (hselector : system.transaction.selector = .lazy (.notStarted options)) :
    system.handed = [] :=
  handed_eq_nil h (by rw [hselector]; rfl)

/-- A statement is elected to start the transaction. -/
theorem Sound.elect (h : Sound system)
    (hselector : system.transaction.selector = .lazy (.notStarted options))
    (hclones : system.clones ≠ 0) :
    Sound ({ system.access (.poll system.notifies) with
      notifies := system.notifies + 1 }.setStatement index .elected) := by
  have hunled := not_leads_of_notStarted h hselector
  have hrunner := not_beginning_of_notStarted h hselector
  have honly : ∀ i, Leads ({ system.access (.poll system.notifies) with
      notifies := system.notifies + 1 }.setStatement index .elected) i → i = index := by
    rintro i ⟨found, hfound, hstarts⟩
    obtain ⟨heq, -⟩ | ⟨-, hold⟩ := Interleaving.getElem?_set_cases hfound
    · exact heq
    · exact absurd ⟨found, hold, hstarts⟩ (hunled i)
  have hstarting : (system.access (.poll system.notifies)).transaction.selector =
      .lazy (.starting options system.notifies) := by
    simp [System.access, ReadWriteTransaction.access, ReadWriteTransaction.change, hselector,
      Selector.change, TransactionState.pollSelectorStatus]
  constructor
  · exact show Selector.WithId (system.access _).transaction.selector by rw [hstarting]; trivial
  · exact fun i j hi hj => (honly i hi).trans (honly j hj).symm
  · exact fun _ _ => hrunner
  · exact fun _ _ => ⟨options, system.notifies, hstarting⟩
  · exact fun hbeginning => absurd hbeginning hrunner
  · intro id hmem
    have hmem' : id ∈ system.handed := hmem
    rw [handed_of_notStarted h hselector] at hmem'
    cases hmem'
  · intro hdisarmed
    have hrecorded : system.transaction.aborted.isSome :=
      disarmed_aborted_of_notStarted h hselector hdisarmed
    exact .inl hrecorded
  · exact fun hzero => absurd hzero hclones
  · intro hdropped
    exact absurd (h.dropped hdropped).2.1 hclones

/-- The commit of a transaction without statements starts it. -/
theorem Sound.begin (h : Sound system) (hworking : system.runner = .working)
    (hselector : system.transaction.selector = .lazy (.notStarted options)) (notify : ℕ) :
    Sound { system with
      transaction := { system.transaction with selector := .lazy (.starting options notify) }
      notifies := system.notifies + 1
      runner := .beginning } := by
  have hunled := not_leads_of_notStarted h hselector
  constructor
  · trivial
  · exact h.unique
  · exact fun i hi => absurd hi (hunled i)
  · exact fun _ _ => ⟨options, notify, rfl⟩
  · exact fun _ => ⟨options, notify, rfl⟩
  · intro id hmem
    have hmem' : id ∈ system.handed := hmem
    rw [handed_of_notStarted h hselector] at hmem'
    cases hmem'
  · intro hdisarmed
    have hrecorded : system.transaction.aborted.isSome :=
      disarmed_aborted_of_notStarted h hselector hdisarmed
    exact .inl hrecorded
  · exact h.idle
  · intro hdropped
    have hended := (h.dropped hdropped).1
    rw [hworking] at hended
    cases hended

end NotStarted

/-- The statement that starts the transaction leaves the state `Starting`. -/
theorem Sound.leave (h : Sound system) (hleads : Leads system index)
    (hclones : system.clones ≠ 0) {access : Access} {handed : List Bytes}
    (hshape : Selector.WithId (system.access access).transaction.selector)
    (hhanded : ∀ id ∈ handed,
      (system.access access).transaction.selector.getIdNoWait = some id)
    (haborted : system.transaction.aborted.isSome →
      (system.access access).transaction.aborted.isSome) :
    Sound ({ system.access access with handed := handed }.setStatement index .finished) := by
  have hstarting := h.leading index hleads
  have hid := getIdNoWait_of_starting hstarting
  have hfailed := not_failed_of_starting hstarting
  have hunled : ∀ i, ¬Leads ({ system.access access with handed := handed }.setStatement
      index .finished) i := by
    intro i hi
    obtain ⟨hne, hold⟩ := leads_set rfl hi
    exact hne (h.unique i index hold hleads)
  have hrunner := h.alone index hleads
  constructor
  · exact hshape
  · exact fun i _ hi => absurd hi (hunled i)
  · exact fun i hi => absurd hi (hunled i)
  · exact fun i hi => absurd hi (hunled i)
  · exact fun hbeginning => absurd hbeginning hrunner
  · exact hhanded
  · intro hdisarmed
    have hbefore : system.transaction.disarmed = true := by
      have hnow : (system.access access).transaction.disarmed = true := hdisarmed
      rwa [access_disarmed'] at hnow
    exact .inl (haborted (disarmed_aborted h hid hfailed hbefore))
  · exact fun hzero => absurd hzero hclones
  · intro hdropped
    exact absurd (h.dropped hdropped).2.1 hclones

section Starting

variable {options : TransactionOptions} {notify : ℕ}

theorem access_update_selector
    (h : system.transaction.selector = .lazy (.starting options notify)) (id : Bytes) :
    (system.access (.update id none)).transaction.selector =
      .lazy (.started (.id id) none) := by
  simp [System.access, ReadWriteTransaction.access, ReadWriteTransaction.change, h,
    Selector.change, TransactionState.update]

theorem access_setFailed_selector
    (h : system.transaction.selector = .lazy (.starting options notify)) (error : Error) :
    (system.access (.setFailed error)).transaction.selector.Failed := by
  simp only [System.access, ReadWriteTransaction.access, ReadWriteTransaction.change, h,
    Selector.change, TransactionState.setFailed]
  split
  · split <;> trivial
  · trivial

theorem access_cancelledStarting_shape
    (h : system.transaction.selector = .lazy (.starting options notify)) :
    Selector.WithId (system.access .cancelledStarting).transaction.selector := by
  simp only [System.access, ReadWriteTransaction.access, ReadWriteTransaction.change, h,
    Selector.change, TransactionState.onCancelledStarting]
  split <;> trivial

end Starting

theorem withId_of_failed {selector : Selector} (h : selector.Failed) :
    Selector.WithId selector := by
  cases selector with
  | fixed selector => exact h.elim
  | lazy state =>
    cases state with
    | started selector timestamp => exact h.elim
    | _ => trivial

/-- A statement that starts the transaction fails. -/
theorem Sound.leaveFailed (h : Sound system) (hleads : Leads system index)
    (hclones : system.clones ≠ 0) (error : Error) :
    Sound ((system.access (.setFailed error)).setStatement index .finished) := by
  obtain ⟨options, notify, hselector⟩ := h.leading index hleads
  have hnone : system.handed = [] := handed_eq_nil h (by rw [hselector]; rfl)
  refine h.leave hleads hclones
    (withId_of_failed (access_setFailed_selector hselector error)) ?_ fun hrecorded => hrecorded
  rw [hnone]
  exact nofun

theorem sound_startAnswered (h : Sound system) (hleads : Leads system index)
    (hclones : system.clones ≠ 0) (id : Option Bytes) (error : Option Error) :
    Sound (system.startAnswered index id error) := by
  have hsound : Sound (system.recordServiceError error) := by
    cases error with
    | none => exact h
    | some error => exact h.record error
  have hleads' : Leads (system.recordServiceError error) index := by
    cases error with
    | none => exact hleads
    | some error => exact hleads
  have hclones' : (system.recordServiceError error).clones ≠ 0 := by
    rw [(frame_recordServiceError error).clones]
    exact hclones
  unfold System.startAnswered
  dsimp only
  cases id.filter (fun id => !id.isEmpty) with
  | some id =>
    obtain ⟨options, notify, hselector⟩ := hsound.leading index hleads'
    have hnone : (system.recordServiceError error).handed = [] :=
      handed_eq_nil hsound (by rw [hselector]; rfl)
    have hstarted := access_update_selector hselector id
    have hleft : Sound ({ (system.recordServiceError error).access (.update id none) with
        handed := (system.recordServiceError error).handed ++ [id] }.setStatement
          index .finished) := by
      refine hsound.leave hleads' hclones' ?_ ?_ fun hrecorded => hrecorded
      · rw [hstarted]
        exact ⟨id, rfl⟩
      · intro other hmem
        rw [hnone, List.nil_append, List.mem_singleton] at hmem
        rw [hstarted, hmem]
        rfl
    exact hleft
  | none =>
    cases error with
    | some error => exact hsound.leaveFailed hleads' hclones' error
    | none => exact hsound.leaveFailed hleads' hclones' _

theorem sound_poll (h : Sound system) (hclones : system.clones ≠ 0) :
    Sound (system.poll index) := by
  unfold System.poll
  split
  · exact h.setStatement rfl hclones
  case h_2 state hselector =>
    split
    · exact h.setStatement rfl hclones
    · exact h
    case h_3 options hpoll =>
      cases state with
      | notStarted options => exact h.elect hselector hclones
      | starting options notify => cases hpoll
      | failed failure => cases hpoll
      | firstStatementFailed => cases hpoll
      | started selector timestamp =>
        -- a started transaction has an id, so its selector begins nothing
        have hshape := h.shape
        rw [hselector] at hshape
        obtain ⟨id, rfl⟩ := hshape
        cases hpoll
    · exact h.setStatement rfl hclones

/-- The statement that starts the transaction sends its request. -/
theorem Sound.setLeading (h : Sound system) (hleads : Leads system index)
    (hclones : system.clones ≠ 0) : Sound (system.setStatement index .leading) := by
  have hsame : ∀ i, Leads (system.setStatement index .leading) i → Leads system i := by
    rintro i ⟨found, hfound, hstarts⟩
    obtain ⟨rfl, -⟩ | ⟨-, hold⟩ := Interleaving.getElem?_set_cases hfound
    · exact hleads
    · exact ⟨found, hold, hstarts⟩
  exact {
    shape := h.shape
    unique := fun i j hi hj => h.unique i j (hsame i hi) (hsame j hj)
    alone := fun i hi => h.alone i (hsame i hi)
    leading := fun i hi => h.leading i (hsame i hi)
    beginning := h.beginning
    handed := h.handed
    disarmed := h.disarmed
    idle := fun hzero => absurd hzero hclones
    dropped := h.dropped }

theorem sound_perform (h : Sound system) {statement : Statement}
    (hstatement : system.statements[index]? = some statement) (action : System.Action) :
    Sound (system.perform index statement action) := by
  have hflight : statement.inFlight = true → system.clones ≠ 0 := clones_ne_zero h hstatement
  have hleads : statement.starts = true → Leads system index :=
    fun hstarts => ⟨statement, hstatement, hstarts⟩
  unfold System.perform
  split
  · exact sound_poll h (hflight rfl)
  · split
    · exact h.setStatement rfl (hflight rfl)
    · exact h.setLeading (hleads rfl) (hflight rfl)
  · split
    · exact h.setStatement rfl (hflight rfl)
    · exact h.setStatement rfl (hflight rfl)
  · exact sound_startAnswered h (hleads rfl) (hflight rfl) _ _
  case h_5 error =>
    have hrecorded := h.record error
    exact hrecorded.leaveFailed (hleads rfl) (hflight rfl) error
  case h_6 =>
    obtain ⟨options, notify, hselector⟩ := h.leading index (hleads rfl)
    have hnone : system.handed = [] := handed_eq_nil h (by rw [hselector]; rfl)
    refine h.leave (hleads rfl) (hflight rfl)
      (access_cancelledStarting_shape hselector) ?_ fun hrecorded => hrecorded
    rw [hnone]
    exact nofun
  case h_7 error => exact (h.record error).setStatement rfl (hflight rfl)
  case h_8 error => exact (h.record error).setStatement rfl (hflight rfl)
  · exact h.setStatement rfl (hflight rfl)
  · exact h.setStatement rfl (hflight rfl)
  · exact h.setStatement rfl (hflight rfl)
  · exact h

/-! ## Steps of the runner -/

theorem not_dropped (h : Sound system) (hrunner : system.runner ≠ .ended) :
    system.dropped = false := by
  cases hdropped : system.dropped with
  | false => rfl
  | true => exact absurd (h.dropped hdropped).1 hrunner

/-- The runner moves on, and disarms the guard only for a reason. -/
theorem Sound.move (h : Sound system) (hrunner : system.runner ≠ .ended)
    (hselector : next.transaction.selector = system.transaction.selector)
    (haborted : next.transaction.aborted = system.transaction.aborted)
    (hstatements : next.statements = system.statements) (hhanded : next.handed = system.handed)
    (hclones : next.clones = system.clones) (hdropped : next.dropped = system.dropped)
    (hdispatched : ∀ rpc ∈ system.dispatched, rpc ∈ next.dispatched)
    (hdisarmed : next.transaction.disarmed = true → system.transaction.disarmed = true ∨
      Justified next)
    (hbeginning : next.runner ≠ .beginning) : Sound next :=
  h.advance {
    selector := hselector
    statements := hstatements
    handed := hhanded
    aborted := fun hrecorded => haborted ▸ hrecorded
    dispatched := hdispatched
    disarmed := hdisarmed
    runner := fun hfalse => absurd hfalse hbeginning
    idle := fun hzero => h.idle (hclones ▸ hzero)
    dropped := fun hfalse => by
      rw [hdropped, not_dropped h hrunner] at hfalse
      cases hfalse }

theorem Sound.commitFailed (h : Sound system) (hrunner : system.runner ≠ .ended)
    (hjustified : Justified system) : Sound system.commitFailed :=
  h.move hrunner rfl rfl rfl rfl rfl rfl (fun _ hmem => hmem) (fun _ => .inr hjustified)
    (by simp [System.commitFailed])

theorem Sound.sendCommit (h : Sound system) (hrunner : system.runner ≠ .ended)
    (hid : system.transaction.selector.getIdNoWait = some id) : Sound (system.sendCommit id) := by
  refine h.move hrunner rfl rfl rfl rfl rfl rfl (fun _ hmem => List.mem_append_left _ hmem)
    (fun _ => .inr (.inr (.inr ⟨id, hid, .inl ?_⟩))) (by simp [System.sendCommit])
  exact List.mem_append_right _ (List.mem_singleton_self _)

theorem sound_workFailed (h : Sound system) (hworking : system.runner = .working) :
    Sound system.workFailed := by
  have hrunner : system.runner ≠ .ended := by simp [hworking]
  unfold System.workFailed
  split
  case isTrue hrecorded =>
    exact h.move hrunner rfl rfl rfl rfl rfl rfl (fun _ hmem => hmem)
      (fun _ => .inr (.inl hrecorded)) (by simp)
  case isFalse =>
    split
    case h_1 id hid =>
      refine h.move hrunner rfl rfl rfl rfl rfl rfl (fun _ hmem => List.mem_append_left _ hmem)
        (fun _ => .inr (.inr (.inr ⟨id, hid, .inr ?_⟩))) (by simp)
      exact List.mem_append_right _ (List.mem_singleton_self _)
    case h_2 =>
      exact h.move hrunner rfl rfl rfl rfl rfl rfl (fun _ hmem => hmem)
        (fun hdisarmed => .inl hdisarmed) (by simp)

/-- The runner commits while a statement is still starting the transaction. -/
def commitsWhileStarting (system : System) : System.Event → Bool
  | .commit => decide (system.runner = .working) && system.transaction.aborted.isNone &&
      match system.transaction.selector with
      | .lazy (.starting _ _) => true
      | _ => false
  | _ => false

theorem sound_commit (h : Sound system) (hworking : system.runner = .working)
    (hintime : commitsWhileStarting system .commit = false) : Sound system.commit := by
  have hrunner : system.runner ≠ .ended := by simp [hworking]
  unfold System.commit
  split
  case isTrue hrecorded => exact h.commitFailed hrunner (.inl hrecorded)
  case isFalse hnone =>
    have hshape := h.shape
    cases hselector : system.transaction.selector with
    | fixed selector =>
      rw [hselector] at hshape
      obtain ⟨id, rfl⟩ := hshape
      exact h.sendCommit hrunner (by rw [hselector]; rfl)
    | lazy state =>
      cases state with
      | notStarted options => exact h.begin hworking hselector system.notifies
      | starting options notify =>
        have hmissing : system.transaction.aborted.isNone = true := by simpa using hnone
        simp [commitsWhileStarting, hworking, hselector, hmissing] at hintime
      | started selector timestamp =>
        rw [hselector] at hshape
        obtain ⟨id, rfl⟩ := hshape
        exact h.sendCommit hrunner (by rw [hselector]; rfl)
      | failed failure =>
        exact h.commitFailed hrunner (.inr (.inl (by rw [hselector]; trivial)))
      | firstStatementFailed =>
        exact h.commitFailed hrunner (.inr (.inl (by rw [hselector]; trivial)))

/-- The start by a commit is over. -/
theorem Sound.leaveBeginning (h : Sound system) (hbeginning : system.runner = .beginning)
    (hrunner : next.runner ≠ .beginning)
    (hshape : Selector.WithId next.transaction.selector)
    (hstatements : next.statements = system.statements) (hclones : next.clones = system.clones)
    (hdropped : next.dropped = system.dropped)
    (hhanded : ∀ id ∈ next.handed, next.transaction.selector.getIdNoWait = some id)
    (hdisarmed : next.transaction.disarmed = true → Justified next) : Sound next := by
  have hunled : ∀ i, ¬Leads next i := by
    intro i hi
    exact h.alone i ((leads_congr hstatements i).mp hi) hbeginning
  constructor
  · exact hshape
  · exact fun i _ hi => absurd hi (hunled i)
  · exact fun i hi => absurd hi (hunled i)
  · exact fun i hi => absurd hi (hunled i)
  · exact fun hfalse => absurd hfalse hrunner
  · exact hhanded
  · exact hdisarmed
  · intro hzero
    unfold System.inFlight
    rw [hstatements]
    exact h.idle (hclones ▸ hzero)
  · intro hfalse
    rw [hdropped, not_dropped h (by simp [hbeginning])] at hfalse
    cases hfalse

theorem sound_beginAnswered (h : Sound system) (hbeginning : system.runner = .beginning)
    (answer : Except Error Bytes) : Sound (system.beginAnswered answer) := by
  obtain ⟨options, notify, hselector⟩ := h.beginning hbeginning
  have hnone : system.handed = [] := handed_eq_nil h (by rw [hselector]; rfl)
  unfold System.beginAnswered
  split
  case h_1 error hanswer =>
    have hfailed : ({ system with
        transaction := system.transaction.change fun _ =>
          TransactionState.handleExplicitBeginCommitFailure error }.access
        (.recordIfAborted error)).commitFailed.transaction.selector.Failed := by
      change (ReadWriteTransaction.recordIfAborted system.client _ error).selector.Failed
      rw [recordIfAborted_selector, ReadWriteTransaction.change, hselector]
      trivial
    refine h.leaveBeginning hbeginning (by simp [System.commitFailed]) (withId_of_failed hfailed)
      rfl rfl rfl ?_ fun _ => .inr (.inl hfailed)
    intro id hmem
    have hmem' : id ∈ system.handed := hmem
    rw [hnone] at hmem'
    cases hmem'
  case h_2 id hanswer =>
    rw [hselector]
    change Sound (((system.hand id).access (.update id none)).sendCommit id)
    have hstarted : ((system.hand id).access (.update id none)).transaction.selector =
        .lazy (.started (.id id) none) := access_update_selector hselector id
    refine h.leaveBeginning hbeginning (by simp [System.sendCommit]) ?_ rfl rfl rfl ?_ ?_
    · exact show Selector.WithId ((system.hand id).access _).transaction.selector by
        rw [hstarted]; exact ⟨id, rfl⟩
    · intro other hmem
      have hmem' : other ∈ system.handed ++ [id] := hmem
      rw [hnone, List.nil_append, List.mem_singleton] at hmem'
      change ((system.hand id).access _).transaction.selector.getIdNoWait = some other
      rw [hstarted, hmem']
      rfl
    · intro _
      refine .inr (.inr ⟨id, ?_, .inl ?_⟩)
      · change ((system.hand id).access _).transaction.selector.getIdNoWait = some id
        rw [hstarted]
        rfl
      · exact List.mem_append_right _ (List.mem_singleton_self _)

theorem sound_commitAnswered (h : Sound system) (hordered : Ordered system) {retried : Bool}
    (hcommitting : system.runner = .committing id retried)
    (answer : Except Error CommitResponse) : Sound (system.commitAnswered id retried answer) := by
  have hrunner : system.runner ≠ .ended := by simp [hcommitting]
  have hjustified : Justified system := by
    unfold Ordered at hordered
    rw [hcommitting] at hordered
    exact h.disarmed hordered.2
  unfold System.commitAnswered
  split
  case h_1 error =>
    refine (h.record error).commitFailed hrunner ?_
    exact hjustified.mono recordIfAborted_selector recordIfAborted_isSome fun _ hmem => hmem
  case h_2 =>
    split
    · exact h.move hrunner rfl rfl rfl rfl rfl rfl (fun _ hmem => hmem)
        (fun hdisarmed => .inl hdisarmed) (by simp)
    · split
      · exact h.commitFailed hrunner hjustified
      · exact h.move hrunner rfl rfl rfl rfl rfl rfl (fun _ hmem => List.mem_append_left _ hmem)
          (fun hdisarmed => .inl hdisarmed) (by simp)

theorem sound_cancelRun (h : Sound system) : Sound system.cancelRun := by
  unfold System.cancelRun
  split
  case h_1 hbeginning =>
    obtain ⟨options, notify, hselector⟩ := h.beginning hbeginning
    have hnone : system.handed = [] := handed_eq_nil h (by rw [hselector]; rfl)
    refine h.leaveBeginning hbeginning (by simp) (access_cancelledStarting_shape hselector)
      rfl rfl rfl ?_ fun hdisarmed => ?_
    · intro id hmem
      have hmem' : id ∈ system.handed := hmem
      rw [hnone] at hmem'
      cases hmem'
    · have hrecorded : system.transaction.aborted.isSome :=
        disarmed_aborted h (by rw [hselector]; rfl) (by rw [hselector]; exact id)
          (by simpa using hdisarmed)
      exact .inl hrecorded
  case h_2 =>
    exact h.advance {
      selector := rfl
      statements := rfl
      handed := rfl
      aborted := fun hrecorded => hrecorded
      dispatched := fun _ hmem => hmem
      disarmed := fun hdisarmed => .inl hdisarmed
      runner := fun hfalse => by cases hfalse
      idle := h.idle
      dropped := fun hdropped => ⟨hdropped, rfl, (h.dropped hdropped).2.1⟩ }

/-! ## The guard -/

theorem sound_dropGuard (h : Sound system) (hended : system.runner = .ended)
    (hclones : system.clones = 0) : Sound system.dropGuard := by
  have hkeep : ∀ dispatched : List Rpc, (∀ rpc ∈ system.dispatched, rpc ∈ dispatched) →
      (∀ id ∈ system.handed, (.commit id ∈ dispatched ∨ .rollback id ∈ dispatched) ∨
        system.transaction.aborted.isSome) →
      Sound { system with dispatched, dropped := true } := by
    intro dispatched hmono hsettled
    exact {
      shape := h.shape
      unique := h.unique
      alone := h.alone
      leading := h.leading
      beginning := h.beginning
      handed := h.handed
      disarmed := fun hdisarmed =>
        (h.disarmed hdisarmed).mono rfl (fun hrecorded => hrecorded) hmono
      idle := h.idle
      dropped := fun _ => ⟨hended, hclones, hsettled⟩ }
  unfold System.dropGuard
  split
  case h_1 hnone =>
    refine hkeep system.dispatched (fun _ hmem => hmem) fun id hmem => ?_
    rw [handed_eq_nil h hnone] at hmem
    cases hmem
  case h_2 id hid =>
    have honly : ∀ other ∈ system.handed, other = id := by
      intro other hmem
      exact Option.some.inj ((h.handed other hmem).symm.trans hid)
    split
    case isTrue hdisarmed =>
      refine hkeep system.dispatched (fun _ hmem => hmem) fun other hmem => ?_
      obtain rfl := honly other hmem
      obtain hrecorded | hfailed | ⟨closed, hsome, hclosed⟩ := h.disarmed hdisarmed
      · exact .inr hrecorded
      · rw [hfailed.getIdNoWait] at hid
        cases hid
      · rw [hid] at hsome
        obtain rfl := Option.some.inj hsome
        exact .inl hclosed
    case isFalse =>
      refine hkeep (system.dispatched ++ [.rollback id])
        (fun _ hmem => List.mem_append_left _ hmem) fun other hmem => ?_
      obtain rfl := honly other hmem
      exact .inl (.inr (List.mem_append_right _ (List.mem_singleton_self _)))

theorem sound_release (h : Sound system) : Sound system.release := by
  unfold System.release
  split
  case isTrue hgoes => exact sound_dropGuard h hgoes.1 hgoes.2.1
  case isFalse => exact h

theorem sound_act (h : Sound system) (hordered : Ordered system) {event : System.Event}
    (hintime : commitsWhileStarting system event = false) : Sound (system.act event) := by
  cases event with
  | statement =>
    unfold System.act
    dsimp only
    split
    · exact h
    case isFalse hstarts =>
      have hsame : ∀ i, Leads { system with statements := system.statements ++ [.polling] } i →
          Leads system i := by
        rintro i ⟨found, hfound, hleads⟩
        obtain hold | ⟨-, rfl⟩ := Interleaving.getElem?_concat_cases hfound
        · exact ⟨found, hold, hleads⟩
        · cases hleads
      exact {
        shape := h.shape
        unique := fun i j hi hj => h.unique i j (hsame i hi) (hsame j hj)
        alone := fun i hi => h.alone i (hsame i hi)
        leading := fun i hi => h.leading i (hsame i hi)
        beginning := h.beginning
        handed := h.handed
        disarmed := h.disarmed
        idle := fun hzero => absurd (.inl hzero) hstarts
        dropped := h.dropped }
  | perform index action =>
    unfold System.act
    dsimp only
    split
    · exact sound_perform h ‹_› action
    · exact h
  | record error => exact h.record error
  | workFailed =>
    unfold System.act
    dsimp only
    split
    · exact sound_workFailed h ‹_›
    · exact h
  | commit =>
    unfold System.act
    dsimp only
    split
    · exact sound_commit h ‹_› hintime
    · exact h
  | beginAnswered answer =>
    unfold System.act
    dsimp only
    split
    · exact sound_beginAnswered h ‹_› answer
    · exact h
  | commitAnswered answer =>
    unfold System.act
    dsimp only
    split
    · exact sound_commitAnswered h hordered ‹_› answer
    · exact h
  | rollbackAnswered =>
    unfold System.act
    dsimp only
    split
    case isTrue hrollingBack =>
      exact h.move (by simp [hrollingBack]) rfl rfl rfl rfl rfl rfl (fun _ hmem => hmem)
        (fun hdisarmed => .inl hdisarmed) (by simp)
    case isFalse => exact h
  | cancelRun => exact sound_cancelRun h
  | clone =>
    unfold System.act
    dsimp only
    split
    · exact h
    case isFalse hclones =>
      exact { h with
        idle := fun hzero => by cases hzero
        dropped := fun hdropped => absurd (h.dropped hdropped).2.1 hclones }
  | dropClone =>
    unfold System.act
    dsimp only
    split
    · exact h
    case isFalse hkeep =>
      refine { h with
        idle := fun hzero => ?_
        dropped := fun hdropped => ?_ }
      · by_cases hnone : system.clones = 0
        · exact h.idle hnone
        · have hone : system.clones = 1 := by
            have hzero' : system.clones - 1 = 0 := hzero
            omega
          have hidle : ¬system.inFlight = true := fun hflight => hkeep ⟨hone, hflight⟩
          exact (by simpa using hidle : system.inFlight = false)
      · obtain ⟨hended, hzero, hsettled⟩ := h.dropped hdropped
        exact ⟨hended, show system.clones - 1 = 0 by omega, hsettled⟩

theorem sound_run (h : Sound system) (hordered : Ordered system) {events : List System.Event}
    (hintime : Interleaving.Along System.step
      (fun system event => commitsWhileStarting system event = false) system events) :
    Sound (system.run events) :=
  (Interleaving.along_invariant
    (motive := fun system => Sound system ∧ Ordered system)
    (fun _ event hcondition h => ⟨sound_release (sound_act h.1 h.2 hcondition),
      ordered_release (ordered_act h.2 event)⟩) ⟨h, hordered⟩ hintime).1

/-! ## Attempts -/

/-- An attempt when its closure is called. -/
def New (client : DatabaseClient) (system : System) : Prop :=
  system = .inlineBegin client ∨ ∃ id, system = .explicitBegin client id

theorem ordered_new {client : DatabaseClient} (h : New client system) : Ordered system := by
  obtain rfl | ⟨id, rfl⟩ := h
  · rfl
  · rfl

theorem sound_new {client : DatabaseClient} (h : New client system) : Sound system := by
  have hunled : system.statements = [] := by
    obtain rfl | ⟨id, rfl⟩ := h
    · rfl
    · rfl
  have hleads : ∀ i, ¬Leads system i := by
    rintro i ⟨statement, hstatement, -⟩
    rw [hunled] at hstatement
    cases hstatement
  have hidle : system.inFlight = false := by
    rw [System.inFlight, hunled]
    rfl
  obtain rfl | ⟨id, rfl⟩ := h
  · exact ⟨trivial, fun i _ hi => absurd hi (hleads i), fun i hi => absurd hi (hleads i),
      fun i hi => absurd hi (hleads i), nofun, nofun, nofun, fun _ => hidle, nofun⟩
  · refine ⟨⟨id, rfl⟩, fun i _ hi => absurd hi (hleads i), fun i hi => absurd hi (hleads i),
      fun i hi => absurd hi (hleads i), nofun, fun other hmem => ?_, nofun, fun _ => hidle, nofun⟩
    rw [List.mem_singleton.mp hmem]
    rfl

/-- In every run of an attempt at most one rollback is dispatched, and none after a commit. When the
runner never commits while a statement is still starting the transaction, every id handed out has
been committed, rolled back or known to be aborted once the last clone is gone. -/
theorem attempt_leaves_nothing (client : DatabaseClient) (start : System)
    (hnew : New client start) (events : List System.Event) :
    (start.run events).dispatched.countP Rpc.isRollback ≤ 1 ∧
    ((start.run events).dispatched.Pairwise fun earlier later =>
      earlier.isRollback = false → later.isRollback = false) ∧
    (Interleaving.Along System.step
        (fun system event => commitsWhileStarting system event = false) start events →
      (start.run events).dropped = true → ∀ id ∈ (start.run events).handed,
        .commit id ∈ (start.run events).dispatched ∨
          (start.run events).transaction.aborted.isSome ∨
          .rollback id ∈ (start.run events).dispatched) := by
  have hordered := ordered_run (ordered_new hnew) events
  refine ⟨countP_isRollback_le hordered, pairwise_not_rollback hordered,
    fun hintime hdropped id hmem => ?_⟩
  have hsound := sound_run (sound_new hnew) (ordered_new hnew) hintime
  obtain (hcommit | hrollback) | hrecorded := (hsound.dropped hdropped).2.2 id hmem
  · exact .inl hcommit
  · exact .inr (.inr hrollback)
  · exact .inr (.inl hrecorded)

/-- The closure fails while a statement is starting the transaction. The id that comes later is
rolled back with the last clone. -/
theorem attempt_leaves_nothing_late_id :
    let system := (System.inlineBegin ⟨false, fun _ => none⟩).run
      [.statement, .perform 0 .advance, .perform 0 .advance, .workFailed,
        .perform 0 (.answered (some [7]) none), .dropClone]
    .commit [7] ∈ system.dispatched ∨ system.transaction.aborted.isSome ∨
      .rollback [7] ∈ system.dispatched :=
  (attempt_leaves_nothing ⟨false, fun _ => none⟩ _ (.inl rfl) _).2.2 (by decide +kernel)
    (by decide +kernel) [7] (by decide +kernel)

/-- The closure returns while a statement is starting the transaction. The commit fails and disarms
the guard, and the id that comes later is left behind. -/
theorem transaction_left_behind :
    let system := (System.inlineBegin ⟨false, fun _ => none⟩).run
      [.statement, .perform 0 .advance, .perform 0 .advance, .commit,
        .perform 0 (.answered (some [7]) none), .dropClone]
    system.dropped = true ∧ system.handed = [[7]] ∧ system.dispatched = [] ∧
      system.transaction.aborted = none := by
  decide +kernel

end GoogleCloudRust.ReadWrite.DropGuard
