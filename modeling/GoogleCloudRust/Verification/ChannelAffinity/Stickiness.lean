import GoogleCloudRust.Model.ChannelAffinity
import GoogleCloudRust.Verification.ChannelPool.Slots

/-! # Read/write transactions stick to one channel

The pin of a handle moves away from a channel only once that channel is closed. Every call
therefore settles on the pinned channel, or on one that has been closed since. -/

namespace GoogleCloudRust.ChannelAffinity

open ChannelPool (Frame Inv Transition)

variable {bound : ℕ} {pool next : ChannelPool bound} {id : ℕ} {entry : ChannelEntry bound}

/-! ## Closed for good -/

/-- The id is no longer, or not, that of a usable channel. The id of a channel that does not
exist yet does not count. -/
def Dead (pool : ChannelPool bound) (id : ℕ) : Prop :=
  id ≤ pool.created.length ∧
    ∀ entry ∈ pool.created, entry.id = id → pool.stateOf entry = .closed

theorem dead_zero (hinv : Inv pool) : Dead pool 0 := by
  refine ⟨Nat.zero_le _, fun entry hentry hid => ?_⟩
  obtain ⟨index, hindex⟩ := List.mem_iff_getElem?.mp hentry
  have := (hinv.created index entry hindex).2
  omega

theorem Dead.frame (h : Dead pool id) (hframe : Frame pool next) : Dead next id := by
  refine ⟨hframe.created ▸ h.1, fun entry hentry hid => ?_⟩
  rw [hframe.stateOf]
  exact h.2 entry (hframe.created ▸ hentry) hid

/-- Closed channels stay closed, and ids are not used again. -/
theorem Dead.transition (hinv : Inv pool) (h : Dead pool id) {event : ChannelPool.Event bound}
    (htransition : Transition pool event next) : Dead next id := by
  have hclosed : ∀ entry ∈ pool.created, entry.id = id → next.stateOf entry = .closed :=
    fun entry hentry hid =>
      ChannelPool.closed_of_transition hinv htransition hentry (h.2 entry hentry hid)
  obtain hcreated | hcreated := ChannelPool.created_of_transition htransition
  · rw [Dead, hcreated]
    exact ⟨h.1, hclosed⟩
  · rw [Dead, hcreated]
    refine ⟨Nat.le_trans h.1 (by simp), fun entry hentry hid => ?_⟩
    obtain hentry | hnew := List.mem_append.mp hentry
    · exact hclosed entry hentry hid
    · obtain rfl := List.mem_singleton.mp hnew
      have hfresh : pool.newEntry.id = pool.created.length + 1 := hinv.nextEntryId
      exact absurd h.1 (by omega)

/-! ## Lookups -/

theorem findActiveEntry_eq_some (h : System.findActiveEntry pool id = some entry) :
    entry ∈ pool.activeEntries ∧ entry.id = id := by
  have hmem := List.mem_of_find?_eq_some h
  have hfound := List.find?_some h
  simp only [decide_eq_true_eq] at hfound
  exact ⟨hmem, hfound.1⟩

theorem findActiveEntry_eq_none (hinv : Inv pool) (h : System.findActiveEntry pool id = none) :
    ∀ entry ∈ pool.activeEntries, entry.id ≠ id := by
  intro entry hentry hid
  have hnot := List.find?_eq_none.mp h entry hentry
  simp [hid, hinv.active entry hentry] at hnot

theorem findDrainingEntry_eq_some (h : System.findDrainingEntry pool id = some entry) :
    entry ∈ pool.drainingEntries ∧ entry.id = id := by
  have hmem := List.mem_of_find?_eq_some h
  have hfound := List.find?_some h
  simp only [decide_eq_true_eq] at hfound
  exact ⟨hmem, hfound.1⟩

/-- What neither lookup finds is dead. -/
theorem dead_of_notFound (hinv : Inv pool) (hid : id ≤ pool.created.length)
    (hactive : ∀ entry ∈ pool.activeEntries, entry.id ≠ id)
    (hdraining : System.findDrainingEntry pool id = none) : Dead pool id := by
  refine ⟨hid, fun entry hentry heq => ?_⟩
  obtain h | h | h := hinv.closed entry hentry
  · exact absurd heq (hactive entry h)
  · have hnot := List.find?_eq_none.mp hdraining entry h
    simp [heq, hinv.draining entry h] at hnot
  · exact h

theorem select_mem {α : Type*} {candidates : List α} {score : α → UInt32} {draws : ℕ × ℕ}
    {candidate : α} (h : PowerOfTwoSelector.select candidates score draws = some candidate) :
    candidate ∈ candidates := by
  unfold PowerOfTwoSelector.select at h
  split at h
  · cases h
  · simpa using h.symm
  · simp only at h
    split at h
    · rename_i first second hfirst hsecond
      split_ifs at h
      · exact Option.some.inj h ▸ List.mem_of_getElem? hfirst
      · exact Option.some.inj h ▸ List.mem_of_getElem? hsecond
    · cases h

/-! ## The active entries under a read lock -/

theorem advanceMonitor_activeEntries {order : List (CandidateKey bound)}
    (hmonitor : pool.monitor.holdsActive = false) (htakes : pool.monitor ≠ .notInCooldown) :
    (pool.advanceMonitor order).activeEntries = pool.activeEntries ∧
      (pool.advanceMonitor order).monitor.holdsActive = false := by
  unfold ChannelPool.advanceMonitor
  cases htask : pool.monitor with
  | idle => exact ⟨rfl, hmonitor⟩
  | scaleUpNotRequested =>
      simp only [ChannelPool.checkCooldown]
      split
      · split_ifs
        · exact ⟨rfl, rfl⟩
        · exact ⟨rfl, rfl⟩
      · exact ⟨rfl, rfl⟩
  | notInCooldown => exact absurd htask htakes
  | summing rest total => simp [htask, MonitorTask.holdsActive] at hmonitor
  | snapshotting channelsToRemove rest keys => simp [htask, MonitorTask.holdsActive] at hmonitor
  | sweeping rest =>
      cases rest with
      | nil => exact ⟨rfl, rfl⟩
      | cons entry rest =>
          simp only [ChannelPool.sweepEntry]
          split
          · exact ⟨rfl, rfl⟩
          · split
            · exact ⟨rfl, rfl⟩
            · split
              · exact ⟨rfl, rfl⟩
              · exact ⟨rfl, rfl⟩

/-- Steps that do not take the write lock leave the active entries alone. -/
theorem step_activeEntries {event : ChannelPool.Event bound}
    (hmonitor : pool.monitor.holdsActive = false) (htakes : System.takesActive pool event = false) :
    (pool.step event).activeEntries = pool.activeEntries ∧
      (pool.step event).monitor.holdsActive = false := by
  cases event with
  | traffic traffic =>
      obtain ⟨hframe, hsame⟩ := ChannelPool.handle_frame pool traffic
      exact ⟨hframe.activeEntries, (congrArg _ hsame).trans hmonitor⟩
  | takeScaleUpRequest => exact ⟨rfl, hmonitor⟩
  | discardScaleUpRequest => exact ⟨rfl, hmonitor⟩
  | advanceWorker =>
      obtain ⟨hframe, hsame⟩ := ChannelPool.advanceWorker_frame pool
      exact ⟨hframe.activeEntries, (congrArg _ hsame).trans hmonitor⟩
  | publishPrimedChannel => cases htakes
  | evaluateAndExecuteScaleDown =>
      simp only [ChannelPool.step, ChannelPool.enter, ChannelPool.checkScaleUpRequested]
      split
      · split_ifs
        · exact ⟨rfl, rfl⟩
        · exact ⟨rfl, rfl⟩
      · exact ⟨rfl, hmonitor⟩
  | sweepDrainingChannels =>
      simp only [ChannelPool.step, ChannelPool.enter]
      split
      · exact ⟨rfl, rfl⟩
      · exact ⟨rfl, hmonitor⟩
  | advanceMonitor order =>
      exact advanceMonitor_activeEntries hmonitor (of_decide_eq_false htakes)

/-! ## The invariant -/

/-- The id is pinned, or was pinned and is dead. -/
def Current (system : System bound) (id : ℕ) : Prop :=
  system.affinity.entryId = id ∨ Dead system.pool id

/-- What a call knows at its place. -/
def CallInv (system : System bound) : Call bound → Prop
  | .readPin | .returned none => True
  | .lockActive currentId | .findActive currentId => Current system (currentId.getD 0)
  | .findDraining id =>
      Current system id ∧ ∀ entry ∈ system.pool.activeEntries, entry.id ≠ id
  | .pick currentId => Dead system.pool (currentId.getD 0)
  | .compareAndSet expectedId lease =>
      Dead system.pool expectedId ∧ lease ∈ system.pool.activeEntries
  | .conflictActive winnerId lease =>
      Current system winnerId ∧ lease ∈ system.pool.activeEntries
  | .conflictDraining winnerId lease =>
      Current system winnerId ∧ (∀ entry ∈ system.pool.activeEntries, entry.id ≠ winnerId) ∧
        lease ∈ system.pool.activeEntries
  | .conflictSet winnerId lease =>
      Dead system.pool winnerId ∧ lease ∈ system.pool.activeEntries
  | .makeLease entry _ | .ensureRwGuard entry | .returned (some entry) =>
      entry ∈ system.pool.created ∧ Current system entry.id

structure SystemInv (system : System bound) : Prop where
  pool : Inv system.pool
  readWrite : system.affinity.isReadWrite = true
  pin : system.affinity.entryId ≤ system.pool.created.length
  lock : system.calls.any Call.holdsActive = true → system.pool.monitor.holdsActive = false
  calls : ∀ call ∈ system.calls, CallInv system call

/-- What another party may do while a call is under way: the pin moves only when it is
dead, dead ids stay so, and the active entries do not change under the lock. -/
structure Rely (system later : System bound) (call : Call bound) : Prop where
  created : ∀ entry ∈ system.pool.created, entry ∈ later.pool.created
  dead : ∀ id, Dead system.pool id → Dead later.pool id
  pin : later.affinity.entryId = system.affinity.entryId ∨
    Dead later.pool system.affinity.entryId
  activeEntries : call.holdsActive = true → later.pool.activeEntries = system.pool.activeEntries

theorem Rely.current {system later : System bound} {call : Call bound}
    (hrely : Rely system later call) (h : Current system id) : Current later id := by
  obtain rfl | hdead := h
  · obtain hsame | hmoved := hrely.pin
    · exact .inl hsame
    · exact .inr hmoved
  · exact .inr (hrely.dead id hdead)

/-- What a call knows survives what the others do. -/
theorem CallInv.rely {system later : System bound} {call : Call bound}
    (h : CallInv system call) (hrely : Rely system later call) : CallInv later call := by
  cases call with
  | readPin => trivial
  | lockActive currentId => exact hrely.current h
  | findActive currentId => exact hrely.current h
  | findDraining id =>
      refine ⟨hrely.current h.1, ?_⟩
      rw [hrely.activeEntries rfl]
      exact h.2
  | pick currentId => exact hrely.dead _ h
  | compareAndSet expectedId lease =>
      refine ⟨hrely.dead _ h.1, ?_⟩
      rw [hrely.activeEntries rfl]
      exact h.2
  | conflictActive winnerId lease =>
      refine ⟨hrely.current h.1, ?_⟩
      rw [hrely.activeEntries rfl]
      exact h.2
  | conflictDraining winnerId lease =>
      refine ⟨hrely.current h.1, ?_⟩
      rw [hrely.activeEntries rfl]
      exact h.2
  | conflictSet winnerId lease =>
      refine ⟨hrely.dead _ h.1, ?_⟩
      rw [hrely.activeEntries rfl]
      exact h.2
  | makeLease entry lost => exact ⟨hrely.created entry h.1, hrely.current h.2⟩
  | ensureRwGuard lease => exact ⟨hrely.created lease h.1, hrely.current h.2⟩
  | returned lease =>
      cases lease with
      | none => trivial
      | some entry => exact ⟨hrely.created entry h.1, hrely.current h.2⟩

theorem pinnedEntryId_getD (affinity : TransactionAffinity bound) :
    affinity.pinnedEntryId.getD 0 = affinity.entryId := by
  by_cases h : affinity.entryId = 0
  · simp [TransactionAffinity.pinnedEntryId, h]
  · simp [TransactionAffinity.pinnedEntryId, h]

/-! ## Steps of a call -/

/-- What a step of a call does to the rest of the system, and what the call knows then. -/
structure CallStep (system : System bound) (call : Call bound) (result : Call bound × System bound) :
    Prop where
  frame : Frame system.pool result.2.pool
  monitor : result.2.pool.monitor = system.pool.monitor
  readWrite : result.2.affinity.isReadWrite = true
  calls : result.2.calls = system.calls
  pin : result.2.affinity.entryId = system.affinity.entryId ∨
    Dead system.pool system.affinity.entryId
  pinCreated : result.2.affinity.entryId ≤ system.pool.created.length
  lock : result.1.holdsActive = true →
    call.holdsActive = true ∨ system.pool.monitor.holdsActive = false
  inv : CallInv result.2 result.1

section

variable {system : System bound} {call after : Call bound} {draws : ℕ × ℕ}

/-- A step that only moves the call on. -/
theorem CallStep.move (hsystem : SystemInv system)
    (hlock : after.holdsActive = true →
      call.holdsActive = true ∨ system.pool.monitor.holdsActive = false)
    (hinv : CallInv system after) : CallStep system call (after, system) where
  frame := Frame.refl system.pool
  monitor := rfl
  readWrite := hsystem.readWrite
  calls := rfl
  pin := .inl rfl
  pinCreated := hsystem.pin
  lock := hlock
  inv := hinv

theorem Current.le (hsystem : SystemInv system) (h : Current system id) :
    id ≤ system.pool.created.length := by
  obtain rfl | hdead := h
  · exact hsystem.pin
  · exact hdead.1

theorem Current.frame {later : System bound} (h : Current system id)
    (hframe : Frame system.pool later.pool)
    (hpin : later.affinity.entryId = system.affinity.entryId) : Current later id := by
  obtain rfl | hdead := h
  · exact .inl hpin
  · exact .inr (hdead.frame hframe)

/-- A compare-and-set replaces a dead id by that of the lease. -/
theorem compareAndSet_callStep (hsystem : SystemInv system) {expectedId : ℕ}
    {lease : ChannelEntry bound} (hcall : call.holdsActive = true)
    (hdead : Dead system.pool expectedId) (hlease : lease ∈ system.pool.activeEntries) :
    CallStep system call
      (match system.affinity.compareAndSetEntryId expectedId lease.id with
        | .ok affinity => (.ensureRwGuard lease, { system with affinity := affinity })
        | .error winnerId => (.conflictActive winnerId lease, system)) := by
  unfold TransactionAffinity.compareAndSetEntryId
  have hcreated := hsystem.pool.mem_of_active hlease
  by_cases h : system.affinity.entryId = expectedId
  · rw [if_pos h]
    exact {
      frame := Frame.refl system.pool
      monitor := rfl
      readWrite := hsystem.readWrite
      calls := rfl
      pin := .inr (h ▸ hdead)
      pinCreated := hsystem.pool.id_le hcreated
      lock := fun _ => .inl hcall
      inv := ⟨hcreated, .inl rfl⟩ }
  · rw [if_neg h]
    exact .move hsystem (fun _ => .inl hcall) ⟨.inl rfl, hlease⟩

theorem ensureRwGuard_frame (system : System bound) (lease : ChannelEntry bound) :
    Frame system.pool (system.ensureRwGuard lease).pool ∧
      (system.ensureRwGuard lease).pool.monitor = system.pool.monitor ∧
      (system.ensureRwGuard lease).affinity.kind = system.affinity.kind ∧
      (system.ensureRwGuard lease).affinity.entryId = system.affinity.entryId ∧
      (system.ensureRwGuard lease).calls = system.calls := by
  unfold System.ensureRwGuard
  split
  · exact ⟨Frame.refl _, rfl, rfl, rfl, rfl⟩
  · rename_i slot hslot
    split_ifs
    · exact ⟨Frame.refl _, rfl, rfl, rfl, rfl⟩
    · obtain ⟨hnew, hnewMonitor⟩ := ChannelPool.newRwGuard_frame system.pool lease
      cases slot with
      | none => exact ⟨hnew, hnewMonitor, rfl, rfl, rfl⟩
      | some guard =>
          obtain ⟨hdrop, hdropMonitor⟩ :=
            ChannelPool.dropRwGuard_frame (system.pool.newRwGuard lease) guard
          exact ⟨hnew.trans hdrop, hdropMonitor.trans hnewMonitor, rfl, rfl, rfl⟩

theorem makeLease_callStep (hsystem : SystemInv system) {entry : ChannelEntry bound}
    {lost : Option (ChannelEntry bound)} (h : CallInv system (.makeLease entry lost)) :
    CallStep system (.makeLease entry lost)
      (system.advanceCall draws (.makeLease entry lost)) := by
  have hframe : Frame system.pool (system.advanceCall draws (.makeLease entry lost)).2.pool ∧
      (system.advanceCall draws (.makeLease entry lost)).2.pool.monitor =
        system.pool.monitor := by
    obtain ⟨hmake, hmakeMonitor⟩ := ChannelPool.makeLease_frame system.pool entry
    cases lost with
    | none => exact ⟨hmake, hmakeMonitor⟩
    | some lease =>
        obtain ⟨hdrop, hdropMonitor⟩ :=
          ChannelPool.dropRpcGuard_frame (system.pool.makeLease entry) lease
        exact ⟨hmake.trans hdrop, hdropMonitor.trans hmakeMonitor⟩
  exact {
    frame := hframe.1
    monitor := hframe.2
    readWrite := hsystem.readWrite
    calls := rfl
    pin := .inl rfl
    pinCreated := hsystem.pin
    lock := fun _ => .inl rfl
    inv := ⟨hframe.1.created.symm ▸ h.1, h.2.frame hframe.1 rfl⟩ }

theorem ensureRwGuard_callStep (hsystem : SystemInv system) {lease : ChannelEntry bound}
    (h : CallInv system (.ensureRwGuard lease)) :
    CallStep system (.ensureRwGuard lease)
      (system.advanceCall draws (.ensureRwGuard lease)) := by
  obtain ⟨hframe, hmonitor, hkind, hpin, hcalls⟩ := ensureRwGuard_frame system lease
  simp only [System.advanceCall, hsystem.readWrite, if_true]
  exact {
    frame := hframe
    monitor := hmonitor
    readWrite := by
      simp only [TransactionAffinity.isReadWrite, hkind]
      exact hsystem.readWrite
    calls := hcalls
    pin := .inl hpin
    pinCreated := hpin ▸ hsystem.pin
    lock := fun _ => .inl rfl
    inv := ⟨hframe.created.symm ▸ h.1, h.2.frame hframe hpin⟩ }

/-- Every step of a call keeps to its part. -/
theorem advanceCall_callStep (hsystem : SystemInv system) (h : CallInv system call)
    (draws : ℕ × ℕ) : CallStep system call (system.advanceCall draws call) := by
  have hpool := hsystem.pool
  cases call with
  | readPin =>
      refine .move hsystem (fun h => by cases h) (.inl ?_)
      exact (pinnedEntryId_getD system.affinity).symm
  | lockActive currentId =>
      simp only [System.advanceCall]
      split_ifs with hlock hempty
      · exact .move hsystem (fun h => by cases h) h
      · exact .move hsystem (fun h => by cases h) trivial
      · exact .move hsystem (fun _ => .inr (Bool.eq_false_iff.mpr hlock)) h
  | findActive currentId =>
      cases currentId with
      | none => exact .move hsystem (fun _ => .inl rfl) (dead_zero hpool)
      | some id =>
          simp only [System.advanceCall]
          split
          · rename_i entry hfound
            obtain ⟨hmem, rfl⟩ := findActiveEntry_eq_some hfound
            exact .move hsystem (fun _ => .inl rfl) ⟨hpool.mem_of_active hmem, h⟩
          · rename_i hfound
            rw [if_pos hsystem.readWrite]
            exact .move hsystem (fun _ => .inl rfl) ⟨h, findActiveEntry_eq_none hpool hfound⟩
  | findDraining id =>
      simp only [System.advanceCall]
      split_ifs with hlock
      · exact .move hsystem (fun _ => .inl rfl) h
      · split
        · rename_i entry hfound
          obtain ⟨hmem, rfl⟩ := findDrainingEntry_eq_some hfound
          exact .move hsystem (fun _ => .inl rfl) ⟨hpool.mem_of_draining hmem, h.1⟩
        · rename_i hfound
          exact .move hsystem (fun _ => .inl rfl)
            (dead_of_notFound hpool (h.1.le hsystem) h.2 hfound)
  | pick currentId =>
      simp only [System.advanceCall]
      split
      · exact .move hsystem (fun _ => .inl rfl) trivial
      · rename_i entry hpicked
        obtain ⟨hframe, hmonitor⟩ := ChannelPool.makeLease_frame system.pool entry
        exact {
          frame := hframe
          monitor := hmonitor
          readWrite := hsystem.readWrite
          calls := rfl
          pin := .inl rfl
          pinCreated := hsystem.pin
          lock := fun _ => .inl rfl
          inv := ⟨h.frame hframe, hframe.activeEntries.symm ▸ select_mem hpicked⟩ }
  | compareAndSet expectedId lease =>
      exact compareAndSet_callStep hsystem rfl h.1 h.2
  | conflictActive winnerId lease =>
      simp only [System.advanceCall]
      split
      · rename_i entry hfound
        obtain ⟨hmem, rfl⟩ := findActiveEntry_eq_some hfound
        exact .move hsystem (fun _ => .inl rfl) ⟨hpool.mem_of_active hmem, h.1⟩
      · rename_i hfound
        rw [if_pos hsystem.readWrite]
        exact .move hsystem (fun _ => .inl rfl)
          ⟨h.1, findActiveEntry_eq_none hpool hfound, h.2⟩
  | conflictDraining winnerId lease =>
      simp only [System.advanceCall]
      split_ifs with hlock
      · exact .move hsystem (fun _ => .inl rfl) h
      · split
        · rename_i entry hfound
          obtain ⟨hmem, rfl⟩ := findDrainingEntry_eq_some hfound
          exact .move hsystem (fun _ => .inl rfl) ⟨hpool.mem_of_draining hmem, h.1⟩
        · rename_i hfound
          exact .move hsystem (fun _ => .inl rfl)
            ⟨dead_of_notFound hpool (h.1.le hsystem) h.2.1 hfound, h.2.2⟩
  | conflictSet winnerId lease =>
      exact compareAndSet_callStep hsystem rfl h.1 h.2
  | makeLease entry lost => exact makeLease_callStep hsystem h
  | ensureRwGuard lease => exact ensureRwGuard_callStep hsystem h
  | returned lease => exact .move hsystem (fun h => by cases h) h

/-! ## Steps of the system -/

theorem any_holdsActive_set {calls : List (Call bound)} {index : ℕ}
    (h : (calls.set index after).any Call.holdsActive = true) :
    calls.any Call.holdsActive = true ∨ after.holdsActive = true := by
  obtain ⟨found, hfound, hholds⟩ := List.any_eq_true.mp h
  obtain ⟨position, hposition⟩ := List.mem_iff_getElem?.mp hfound
  obtain ⟨-, rfl⟩ | ⟨-, hother⟩ := Interleaving.getElem?_set_cases hposition
  · exact .inr hholds
  · exact .inl (List.any_eq_true.mpr ⟨found, List.mem_of_getElem? hother, hholds⟩)

/-- Changes to counters alone keep the pool in order. -/
theorem inv_frame (hpool : Inv pool) (hframe : Frame pool next)
    (hmonitor : next.monitor = pool.monitor) : Inv next := by
  refine hpool.quiet hframe ?_
  rw [hmonitor]
  exact hpool.monitor.frame hframe

theorem rely_frame {later : System bound} (hframe : Frame system.pool later.pool)
    (hpin : later.affinity.entryId = system.affinity.entryId ∨
      Dead system.pool system.affinity.entryId) (call : Call bound) : Rely system later call where
  created := fun _ h => hframe.created.symm ▸ h
  dead := fun _ h => h.frame hframe
  pin := hpin.imp_right fun h => h.frame hframe
  activeEntries := fun _ => hframe.activeEntries

theorem SystemInv.advance (hsystem : SystemInv system) (index : ℕ) (draws : ℕ × ℕ) :
    SystemInv (system.step (.advance index draws)) := by
  simp only [System.step]
  cases hindex : system.calls[index]? with
  | none => exact hsystem
  | some call =>
      have hmem := List.mem_of_getElem? hindex
      have hstep := advanceCall_callStep hsystem (hsystem.calls call hmem) draws
      simp only
      generalize system.advanceCall draws call = result at hstep ⊢
      rw [hstep.calls]
      constructor
      · exact inv_frame hsystem.pool hstep.frame hstep.monitor
      · exact hstep.readWrite
      · exact hstep.frame.created.symm ▸ hstep.pinCreated
      · intro hholds
        refine (congrArg MonitorTask.holdsActive hstep.monitor).trans ?_
        obtain hbefore | hafter := any_holdsActive_set hholds
        · exact hsystem.lock hbefore
        · obtain hcall | hfree := hstep.lock hafter
          · exact hsystem.lock (List.any_eq_true.mpr ⟨call, hmem, hcall⟩)
          · exact hfree
      · intro other hother
        obtain ⟨position, hposition⟩ := List.mem_iff_getElem?.mp hother
        obtain ⟨-, rfl⟩ | ⟨-, hsame⟩ := Interleaving.getElem?_set_cases hposition
        · exact hstep.inv
        · have hkept := hsystem.calls other (List.mem_of_getElem? hsame)
          refine hkept.rely (rely_frame ?_ ?_ other)
          · exact hstep.frame
          · exact hstep.pin

/-- A step of the pool is one that every call relies on. -/
theorem SystemInv.poolStep (hsystem : SystemInv system) (event : ChannelPool.Event bound) :
    SystemInv (system.step (.pool event)) := by
  simp only [System.step]
  split_ifs with hwait
  · exact hsystem
  · have htransition := ChannelPool.step_transition system.pool event
    -- Nobody takes the write lock while a call holds the read lock.
    have hlock : system.calls.any Call.holdsActive = true →
        (system.pool.step event).activeEntries = system.pool.activeEntries ∧
          (system.pool.step event).monitor.holdsActive = false := by
      intro hholds
      refine step_activeEntries (hsystem.lock hholds) ?_
      simpa [hholds] using hwait
    have hcreated : ∀ entry ∈ system.pool.created, entry ∈ (system.pool.step event).created := by
      intro entry hentry
      obtain heq | heq := ChannelPool.created_of_transition htransition
      · exact heq ▸ hentry
      · exact heq ▸ List.mem_append_left _ hentry
    have hlength : system.pool.created.length ≤ (system.pool.step event).created.length := by
      obtain heq | heq := ChannelPool.created_of_transition htransition
      · rw [heq]
      · rw [heq, List.length_append]
        exact Nat.le_add_right _ _
    constructor
    · exact hsystem.pool.transition htransition
    · exact hsystem.readWrite
    · exact Nat.le_trans hsystem.pin hlength
    · exact fun hholds => (hlock hholds).2
    · intro call hcall
      exact (hsystem.calls call hcall).rely {
        created := hcreated
        dead := fun id h => h.transition hsystem.pool htransition
        pin := .inl rfl
        activeEntries := fun h => (hlock (List.any_eq_true.mpr ⟨call, hcall, h⟩)).1 }

theorem SystemInv.releaseRwGuard (hsystem : SystemInv system) :
    SystemInv (system.step .releaseRwGuard) := by
  obtain ⟨hframe, hmonitor⟩ : Frame system.pool system.releaseRwGuard.pool ∧
      system.releaseRwGuard.pool.monitor = system.pool.monitor := by
    unfold System.releaseRwGuard
    simp only
    split
    · exact ChannelPool.dropRwGuard_frame _ _
    · exact ⟨Frame.refl _, rfl⟩
  constructor
  · exact inv_frame hsystem.pool hframe hmonitor
  · exact hsystem.readWrite
  · exact hframe.created.symm ▸ hsystem.pin
  · intro hholds
    exact (congrArg MonitorTask.holdsActive hmonitor).trans (hsystem.lock hholds)
  · intro call hcall
    exact (hsystem.calls call hcall).rely (rely_frame hframe (.inl rfl) call)

theorem SystemInv.step (hsystem : SystemInv system) (event : System.Event bound) :
    SystemInv (system.step event) := by
  cases event with
  | pool event => exact hsystem.poolStep event
  | resolveAffinity =>
      refine ⟨hsystem.pool, hsystem.readWrite, hsystem.pin, fun h => hsystem.lock ?_, ?_⟩
      · simpa [System.step, Call.holdsActive] using h
      · intro call hcall
        obtain hcall | hnew := List.mem_append.mp hcall
        · exact hsystem.calls call hcall
        · obtain rfl := List.mem_singleton.mp hnew
          trivial
  | advance index draws => exact hsystem.advance index draws
  | releaseRwGuard => exact hsystem.releaseRwGuard

/-! ## Runs -/

/-- A new read/write handle over a new pool. -/
def start (channels : List (Instant bound)) (config : DynamicChannelPoolConfig)
    (now : Instant bound) : System bound where
  pool := .newDynamic channels config now
  affinity := .newReadWrite

theorem run_inv (channels : List (Instant bound)) (config : DynamicChannelPoolConfig)
    (now : Instant bound) (hvalid : config.validate = .ok ())
    (hlength : channels.length = config.initialChannels) (events : List (System.Event bound)) :
    SystemInv ((start channels config now).run events) := by
  refine Interleaving.foldl_invariant (motive := SystemInv) (fun _ event h => h.step event) ?_ events
  constructor
  · exact (ChannelPool.newDynamic_slots channels config now hvalid hlength).1.toInv
  · rfl
  · exact Nat.zero_le _
  · exact fun h => by cases h
  · exact fun call h => by cases h

/-- Two calls return leases on different channels only if one of the two has been closed. -/
theorem run_sticky (channels : List (Instant bound)) (config : DynamicChannelPoolConfig)
    (now : Instant bound) (hvalid : config.validate = .ok ())
    (hlength : channels.length = config.initialChannels) (events : List (System.Event bound))
    (lease other : ChannelEntry bound)
    (hlease : .returned (some lease) ∈ ((start channels config now).run events).calls)
    (hother : .returned (some other) ∈ ((start channels config now).run events).calls)
    (hne : lease ≠ other) :
    ((start channels config now).run events).pool.stateOf lease = .closed ∨
      ((start channels config now).run events).pool.stateOf other = .closed := by
  have hinv := run_inv channels config now hvalid hlength events
  generalize (start channels config now).run events = system at hinv hlease hother
  obtain ⟨hcreated, hpinned | hdead⟩ := hinv.calls _ hlease
  · obtain ⟨hcreated', hpinned' | hdead'⟩ := hinv.calls _ hother
    · exact absurd (hinv.pool.eq_of_id hcreated hcreated' (hpinned.symm.trans hpinned')) hne
    · exact .inr (hdead'.2 other hcreated' rfl)
  · exact .inl (hdead.2 lease hcreated rfl)

/-- The pinned channel is drained and closed between two calls: the second call pins the
other one. -/
theorem run_sticky_repinned :
    let config : DynamicChannelPoolConfig :=
      { initialChannels := 2, minChannels := 1, consecutiveLowLoadChecks := 1,
        drainIdleGrace := .zero }
    let lease : ChannelEntry 0 := ⟨0, 1, 1, ⟨0, le_rfl⟩⟩
    let other : ChannelEntry 0 := ⟨1, 2, 2, ⟨0, le_rfl⟩⟩
    let events : List (System.Event 0) :=
      System.Event.resolveAffinity :: List.replicate 6 (System.Event.advance 0 (0, 0)) ++
        [System.Event.pool (.traffic (.dropRpcGuard 0)), .releaseRwGuard,
          .pool .evaluateAndExecuteScaleDown] ++
        List.replicate 8 (System.Event.pool (.advanceMonitor [])) ++
        [System.Event.pool .sweepDrainingChannels] ++
        List.replicate 2 (System.Event.pool (.advanceMonitor [])) ++
        System.Event.resolveAffinity :: List.replicate 8 (System.Event.advance 1 (0, 0))
    let system := (start [⟨0, le_rfl⟩, ⟨0, le_rfl⟩] config ⟨0, le_rfl⟩).run events
    .returned (some lease) ∈ system.calls ∧ .returned (some other) ∈ system.calls ∧
      (system.pool.stateOf lease = .closed ∨ system.pool.stateOf other = .closed) := by
  intro config lease other events system
  have hlease : .returned (some lease) ∈ system.calls := by decide +kernel
  have hother : .returned (some other) ∈ system.calls := by decide +kernel
  exact ⟨hlease, hother, run_sticky [⟨0, le_rfl⟩, ⟨0, le_rfl⟩] config ⟨0, le_rfl⟩
    (by decide +kernel) rfl events lease other hlease hother (by decide)⟩

end

end GoogleCloudRust.ChannelAffinity
