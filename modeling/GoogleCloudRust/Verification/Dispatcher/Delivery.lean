import GoogleCloudRust.Library.Router
import GoogleCloudRust.Model.Dispatcher
import GoogleCloudRust.Verification.BatchActor.Concurrent

/-! # Every message is answered, and a flush waits for those before it

The dispatcher routes commands to its actors, which are workers with barriers. Without
panics no actor ends before its channel is closed, so the dispatcher never stops early. -/

namespace GoogleCloudRust.Publisher

open Barrier

def ToDispatcher.command : ToDispatcher → Command BundledMessage
  | publish msg => .item msg
  | flush tx => .barrier tx
  | resumePublish _ => .other

namespace ActorTask

variable {task : ActorTask} {event : BatchActor.Event}

def worker : ActorTask → Worker BundledMessage
  | concurrent actor => actor.worker
  | sequential actor => actor.worker

def Inv : ActorTask → Prop
  | concurrent actor => actor.ConcurrentInv ∧ Calm actor.toBatchActor
  | sequential actor => actor.SequentialInv ∧ Calm actor.toBatchActor

/-! ## Tasks of either kind -/

theorem Inv.calm (h : task.Inv) : Calm task.batchActor := by
  cases task with
  | concurrent actor => exact h.2
  | sequential actor => exact h.2

theorem Inv.step (h : task.Inv) (hevent : event.Calm) : (task.step event).Inv := by
  cases task with
  | concurrent actor =>
      have hstep := ConcurrentBatchActor.step_cases h.2 event
      exact ⟨h.1.of_step hstep, hstep.calm h.2 hevent⟩
  | sequential actor =>
      have hstep := SequentialBatchActor.step_cases h.1 event
      exact ⟨h.1.of_step hstep, hstep.calm h.2 hevent⟩

theorem Inv.steps (h : task.Inv) (hevent : event.IsInternal) :
    Steps task.worker (task.step event).worker := by
  cases task with
  | concurrent actor =>
      exact (ConcurrentBatchActor.step_cases h.2 event).worker_steps h.1 hevent
  | sequential actor =>
      exact (SequentialBatchActor.step_cases h.1 event).worker_steps h.1 hevent

theorem step_of_gone (h : task.isGone = true) : task.step event = task := by
  cases task with
  | concurrent actor => exact congrArg concurrent (ConcurrentBatchActor.step_of_gone h)
  | sequential actor =>
      have hended : actor.phase = .ended := by simpa [isGone] using h
      exact congrArg sequential (SequentialBatchActor.step_of_ended hended)

/-- An actor ends when its channel is closed and everything is consumed. -/
theorem Inv.gone (h : task.Inv) (hgone : task.isGone = true) :
    task.batchActor.closed = true ∧ task.worker.waiting = 0 := by
  cases task with
  | concurrent actor =>
      have hended : actor.phase = .ended := by
        simpa [isGone, ConcurrentBatchActor.isGone, h.1.alive] using hgone
      obtain ⟨hclosed, hrx, hbatch, hinflight⟩ := h.1.ended hended
      refine ⟨hclosed, ?_⟩
      simp [worker, ConcurrentBatchActor.worker, Worker.waiting, Worker.queued, BatchActor.held,
        BatchActor.running, hrx, hbatch, hinflight]
  | sequential actor =>
      have hended : actor.phase = .ended := by simpa [isGone] using hgone
      obtain ⟨hclosed, hrx, hpending, hbatch, hinflight⟩ := h.1.ended hended
      refine ⟨hclosed, ?_⟩
      simp [worker, SequentialBatchActor.worker, Worker.waiting, Worker.queued, BatchActor.held,
        BatchActor.running, hrx, hpending, hbatch, hinflight]

/-- A command is put into the channel. -/
theorem worker_send (hgone : task.isGone = false) (hclosed : task.batchActor.closed = false)
    (command : ToBatchActor) :
    (task.step (.send command)).worker = task.worker.put command.command ∧
      (task.step (.send command)).batchActor.closed = false := by
  cases task with
  | concurrent actor =>
      rw [step, ConcurrentBatchActor.step_send hgone hclosed]
      refine ⟨Worker.ext ?_ rfl rfl rfl rfl, hclosed⟩
      simp [worker, ConcurrentBatchActor.worker, Worker.put]
  | sequential actor =>
      have hended : actor.phase ≠ .ended := by simpa [isGone] using hgone
      rw [step, SequentialBatchActor.step_send hended hclosed]
      refine ⟨Worker.ext ?_ rfl rfl rfl rfl, hclosed⟩
      simp [worker, SequentialBatchActor.worker, Worker.put]

theorem worker_close (task : ActorTask) : (task.step .close).worker = task.worker := by
  by_cases hgone : task.isGone = true
  · rw [step_of_gone hgone]
  · cases task with
    | concurrent actor =>
        have halive : actor.isGone = false := by simpa [isGone] using hgone
        rw [step, ConcurrentBatchActor.step_close halive]
        rfl
    | sequential actor =>
        have hended : actor.phase ≠ .ended := by simpa [isGone] using hgone
        rw [step, SequentialBatchActor.step_close hended]
        rfl

theorem Inv.closed_step (h : task.Inv) (hevent : event.IsInternal) :
    (task.step event).batchActor.closed = task.batchActor.closed := by
  cases task with
  | concurrent actor => exact (ConcurrentBatchActor.step_cases h.2 event).closed_eq hevent
  | sequential actor => exact (SequentialBatchActor.step_cases h.1 event).closed_eq hevent

theorem acknowledged_eq (task : ActorTask) : task.worker.acknowledged = task.batchActor.flushed := by
  cases task with
  | concurrent actor => rfl
  | sequential actor => rfl

theorem consumed_eq (task : ActorTask) :
    task.worker.consumed = ↑(task.batchActor.answers.map Answer.message) := by
  cases task with
  | concurrent actor => rfl
  | sequential actor => rfl

end ActorTask

/-! ## The dispatcher as a router -/

namespace Dispatcher

variable {dispatcher : Dispatcher}

/-- Nothing happens to an actor that was never spawned. -/
theorem step_actor_of_none {index : ℕ} (hentry : dispatcher.batchActors[index]? = none)
    (event : BatchActor.Event) : dispatcher.step (.actor index event) = dispatcher := by
  cases event with
  | _ => simp [step, hentry]

def router (dispatcher : Dispatcher) : Router BundledMessage where
  commands := dispatcher.rx.map ToDispatcher.command
  issued := dispatcher.issued
  workers := dispatcher.batchActors.map fun entry => entry.task.worker
  published := dispatcher.published
  flushes := dispatcher.flushTasks.map fun task => (task.tx, task.actors)
  answered := dispatcher.answered

/-- The router after a change to the channel and the actors. -/
theorem router_with {rx : List ToDispatcher} {batchActors : List ActorEntry}
    {commands : List (Command BundledMessage)} {workers : List (Worker BundledMessage)}
    (hcommands : rx.map ToDispatcher.command = commands)
    (hworkers : batchActors.map (fun entry => entry.task.worker) = workers) :
    router { dispatcher with rx := rx, batchActors := batchActors } =
      { dispatcher.router with commands := commands, workers := workers } := by
  rw [← hcommands, ← hworkers]
  rfl

structure DispatcherInv (dispatcher : Dispatcher) : Prop where
  tasks : ∀ entry ∈ dispatcher.batchActors, entry.task.Inv
  running : dispatcher.phase = .running →
    ∀ entry ∈ dispatcher.batchActors, entry.task.batchActor.closed = false
  stopped : dispatcher.phase ≠ .stopped
  rx : dispatcher.phase ≠ .running → dispatcher.rx = []
  joined : ∀ entry ∈ dispatcher.batchActors, entry.joined = true → entry.task.isGone = true
  ended : dispatcher.phase = .ended →
    ∀ entry ∈ dispatcher.batchActors, entry.task.isGone = true

/-- While the dispatcher runs no actor ends. -/
theorem DispatcherInv.not_gone (h : DispatcherInv dispatcher) (hphase : dispatcher.phase = .running)
    {entry : ActorEntry} (hentry : entry ∈ dispatcher.batchActors) : entry.task.isGone = false := by
  by_contra hgone
  have hclosed := ((h.tasks entry hentry).gone (by simpa using hgone)).1
  rw [h.running hphase entry hentry] at hclosed
  cases hclosed

/-- One actor has changed. -/
theorem DispatcherInv.set (h : DispatcherInv dispatcher) {index : ℕ} {entry after : ActorEntry}
    (hentry : dispatcher.batchActors[index]? = some entry) (hinv : after.task.Inv)
    (hclosed : after.task.batchActor.closed = entry.task.batchActor.closed)
    (hgone : entry.task.isGone = true → after.task.isGone = true)
    (hjoined : after.joined = true → after.task.isGone = true) :
    DispatcherInv { dispatcher with batchActors := dispatcher.batchActors.set index after } where
  tasks := by
    intro found hfound
    obtain hold | rfl := List.mem_or_eq_of_mem_set hfound
    · exact h.tasks found hold
    · exact hinv
  running := by
    intro hphase found hfound
    obtain hold | rfl := List.mem_or_eq_of_mem_set hfound
    · exact h.running hphase found hold
    · exact hclosed.trans (h.running hphase entry (List.mem_of_getElem? hentry))
  stopped := h.stopped
  rx := h.rx
  joined := by
    intro found hfound
    obtain hold | rfl := List.mem_or_eq_of_mem_set hfound
    · exact h.joined found hold
    · exact hjoined
  ended := by
    intro hphase found hfound
    obtain hold | rfl := List.mem_or_eq_of_mem_set hfound
    · exact h.ended hphase found hold
    · exact hgone (h.ended hphase entry (List.mem_of_getElem? hentry))

theorem spawnActor_spec (dispatcher : Dispatcher) (key : String) :
    (dispatcher.spawnActor key).task.Inv ∧
      (dispatcher.spawnActor key).task.worker = Worker.fresh BundledMessage ∧
      (dispatcher.spawnActor key).task.batchActor.closed = false := by
  have hcalm : ∀ batch : Batch, Calm { batch := batch } := fun batch => ⟨by simp, by simp⟩
  unfold spawnActor
  split_ifs with hkey
  · exact ⟨⟨ConcurrentBatchActor.concurrentInv_new _ _, hcalm _⟩, rfl, rfl⟩
  · exact ⟨⟨SequentialBatchActor.sequentialInv_new _ _, hcalm _⟩, rfl, rfl⟩

/-- A new actor is there. -/
theorem DispatcherInv.spawn (h : DispatcherInv dispatcher) (hphase : dispatcher.phase = .running)
    (key : String) :
    DispatcherInv { dispatcher with
      batchActors := dispatcher.batchActors ++ [dispatcher.spawnActor key] } := by
  obtain ⟨hinv, -, hclosed⟩ := spawnActor_spec dispatcher key
  exact {
    tasks := by
      intro found hfound
      obtain hold | hnew := List.mem_append.mp hfound
      · exact h.tasks found hold
      · obtain rfl := List.mem_singleton.mp hnew
        exact hinv
    running := by
      intro _ found hfound
      obtain hold | hnew := List.mem_append.mp hfound
      · exact h.running hphase found hold
      · obtain rfl := List.mem_singleton.mp hnew
        exact hclosed
    stopped := h.stopped
    rx := h.rx
    joined := by
      intro found hfound
      obtain hold | hnew := List.mem_append.mp hfound
      · exact h.joined found hold
      · obtain rfl := List.mem_singleton.mp hnew
        intro hjoined
        cases hjoined
    ended := fun hended => absurd (hphase.symm.trans hended) (by simp) }

/-- The entry of a key is there, or is spawned. -/
theorem entry_spec (h : DispatcherInv dispatcher) (hphase : dispatcher.phase = .running)
    (key : String) :
    ∃ index batchActors found, dispatcher.entry key = (index, batchActors) ∧
      batchActors[index]? = some found ∧
      DispatcherInv { dispatcher with batchActors := batchActors } ∧
      Router.Steps BundledMessage.tx dispatcher.router
        (router { dispatcher with batchActors := batchActors }) := by
  unfold entry
  split
  · rename_i index hindex
    obtain ⟨hlt, -⟩ := List.findIdx?_eq_some_iff_getElem.mp hindex
    exact ⟨index, _, dispatcher.batchActors[index], rfl, List.getElem?_eq_getElem hlt, h, .refl⟩
  · refine ⟨dispatcher.batchActors.length, _, dispatcher.spawnActor key, rfl, by simp,
      h.spawn hphase key, .single ?_⟩
    have hworkers : (dispatcher.batchActors ++ [dispatcher.spawnActor key]).map
        (fun entry => entry.task.worker) =
        dispatcher.router.workers ++ [Worker.fresh BundledMessage] := by
      rw [List.map_append, List.map_singleton, (spawnActor_spec dispatcher key).2.1]
      rfl
    rw [router_with rfl hworkers]
    exact .spawn

theorem send_eq_some (h : DispatcherInv dispatcher) (hphase : dispatcher.phase = .running)
    {index : ℕ} {entry : ActorEntry} (hentry : dispatcher.batchActors[index]? = some entry)
    (command : ToBatchActor) :
    send dispatcher.batchActors index command =
        some (dispatcher.batchActors.set index (stepEntry (.send command) entry)) ∧
      DispatcherInv { dispatcher with
        batchActors := dispatcher.batchActors.set index (stepEntry (.send command) entry) } ∧
      (dispatcher.batchActors.set index (stepEntry (.send command) entry)).map
          (fun entry => entry.task.worker) =
        dispatcher.router.workers.set index (entry.task.worker.put command.command) := by
  have hmem := List.mem_of_getElem? hentry
  have hgone := h.not_gone hphase hmem
  have hclosed := h.running hphase entry hmem
  obtain ⟨hworker, hopen⟩ := ActorTask.worker_send hgone hclosed command
  refine ⟨?_, ?_, ?_⟩
  · simp [send, hentry, hgone]
  · refine h.set hentry ((h.tasks entry hmem).step trivial) (hopen.trans hclosed.symm) ?_ ?_
    · simp [hgone]
    · intro hjoined
      have hentryGone := h.joined entry hmem hjoined
      rw [hgone] at hentryGone
      cases hentryGone
  · rw [List.map_set]
    exact congrArg (List.set dispatcher.router.workers index) hworker

theorem router_workers_getElem? {index : ℕ} {entry : ActorEntry}
    (hentry : dispatcher.batchActors[index]? = some entry) :
    dispatcher.router.workers[index]? = some entry.task.worker := by
  simp [router, hentry]

/-! ## Steps -/

/-- What a step of the dispatcher preserves, and what it does as a router. -/
def Simulates (dispatcher next : Dispatcher) : Prop :=
  DispatcherInv next ∧ Router.Steps BundledMessage.tx dispatcher.router next.router

theorem receive_publish (h : DispatcherInv dispatcher) (hphase : dispatcher.phase = .running)
    {msg : BundledMessage} {rx : List ToDispatcher} (hrx : dispatcher.rx = .publish msg :: rx) :
    Simulates dispatcher (receive { dispatcher with rx := rx } (some (.publish msg))) := by
  obtain ⟨index, batchActors, found, hentry, hfound, hinv, hsteps⟩ :=
    entry_spec h hphase msg.msg.orderingKey
  have hentry' : entry { dispatcher with rx := rx } msg.msg.orderingKey = (index, batchActors) :=
    hentry
  obtain ⟨hsend, hafter, hworkers⟩ := send_eq_some hinv hphase hfound (.publish msg)
  simp only [receive, hentry', hsend]
  refine ⟨⟨hafter.tasks, hafter.running, hafter.stopped, ?_, hafter.joined, hafter.ended⟩, ?_⟩
  · exact fun hne => absurd hphase hne
  · refine hsteps.tail ?_
    rw [router_with rfl hworkers]
    refine .route msg _ index found.task.worker ?_ (router_workers_getElem? hfound)
    rw [router, hrx]
    rfl

theorem any_isGone (h : DispatcherInv dispatcher) (hphase : dispatcher.phase = .running) :
    (dispatcher.batchActors.any fun entry => entry.task.isGone) = false := by
  rw [List.any_eq_false]
  intro entry hentry
  simp [h.not_gone hphase hentry]

theorem receive_flush (h : DispatcherInv dispatcher) (hphase : dispatcher.phase = .running)
    {tx : ℕ} {rx : List ToDispatcher} (hrx : dispatcher.rx = .flush tx :: rx) :
    Simulates dispatcher (receive { dispatcher with rx := rx } (some (.flush tx))) := by
  have hsend : ∀ entry ∈ dispatcher.batchActors,
      (stepEntry (.send (.flush tx)) entry).task.worker = entry.task.worker.put (.barrier tx) ∧
        (stepEntry (.send (.flush tx)) entry).task.batchActor.closed = false := by
    intro entry hentry
    exact ActorTask.worker_send (h.not_gone hphase hentry) (h.running hphase entry hentry) _
  simp only [receive, any_isGone h hphase, Bool.false_eq_true, if_false]
  constructor
  · refine ⟨?_, ?_, h.stopped, fun hne => absurd hphase hne, ?_, ?_⟩
    · intro found hfound
      obtain ⟨entry, hentry, rfl⟩ := List.mem_map.mp hfound
      exact (h.tasks entry hentry).step trivial
    · intro _ found hfound
      obtain ⟨entry, hentry, rfl⟩ := List.mem_map.mp hfound
      exact (hsend entry hentry).2
    · intro found hfound hjoined
      obtain ⟨entry, hentry, rfl⟩ := List.mem_map.mp hfound
      have hgone := h.joined entry hentry hjoined
      rw [h.not_gone hphase hentry] at hgone
      cases hgone
    · exact fun hended => absurd (hphase.symm.trans hended) (by simp)
  · have hworkers : (dispatcher.batchActors.map (stepEntry (.send (.flush tx)))).map
        (fun entry => entry.task.worker) =
        dispatcher.router.workers.map fun w => w.put (.barrier tx) := by
      rw [List.map_map, router, List.map_map]
      exact List.map_congr_left fun entry hentry => (hsend entry hentry).1
    have hbroadcast : Router.Step BundledMessage.tx dispatcher.router _ :=
      .broadcast tx (rx.map ToDispatcher.command) (by rw [router, hrx]; rfl)
    have hnext : router { dispatcher with
        rx := rx
        batchActors := dispatcher.batchActors.map (stepEntry (.send (.flush tx)))
        flushTasks := dispatcher.flushTasks ++ [⟨tx, dispatcher.batchActors.length⟩] } =
        { dispatcher.router with
          commands := rx.map ToDispatcher.command
          workers := dispatcher.router.workers.map fun w => w.put (.barrier tx)
          flushes := dispatcher.router.flushes ++ [(tx, dispatcher.router.workers.length)] } := by
      rw [← hworkers]
      simp [router]
    rw [hnext]
    exact .single hbroadcast

theorem receive_resumePublish (h : DispatcherInv dispatcher)
    (hphase : dispatcher.phase = .running) {orderingKey : String} {rx : List ToDispatcher}
    (hrx : dispatcher.rx = .resumePublish orderingKey :: rx) :
    Simulates dispatcher
      (receive { dispatcher with rx := rx } (some (.resumePublish orderingKey))) := by
  have hcommands : dispatcher.router.commands = .other :: rx.map ToDispatcher.command := by
    rw [router, hrx]
    rfl
  simp only [receive]
  split
  · rename_i index hindex
    obtain ⟨hlt, -⟩ := List.findIdx?_eq_some_iff_getElem.mp hindex
    have hentry := List.getElem?_eq_getElem hlt
    obtain ⟨hsend, hafter, hworkers⟩ := send_eq_some h hphase hentry .resumePublish
    simp only [hsend]
    refine ⟨⟨hafter.tasks, hafter.running, hafter.stopped, ?_, hafter.joined, hafter.ended⟩, ?_⟩
    · exact fun hne => absurd hphase hne
    · rw [router_with rfl hworkers]
      exact .single (.tell _ index _ hcommands (router_workers_getElem? hentry))
  · refine ⟨⟨h.tasks, h.running, h.stopped, fun hne => absurd hphase hne, h.joined, h.ended⟩, ?_⟩
    exact .single (.drop _ hcommands)

/-- The handles are dropped, which no worker notices. -/
theorem receive_none (h : DispatcherInv dispatcher) (hrx : dispatcher.rx = []) :
    Simulates dispatcher (dispatcher.receive none) := by
  simp only [receive]
  constructor
  · refine ⟨?_, by simp, by simp, fun _ => hrx, ?_, by simp⟩
    · intro found hfound
      obtain ⟨entry, hentry, rfl⟩ := List.mem_map.mp hfound
      exact (h.tasks entry hentry).step trivial
    · intro found hfound hjoined
      obtain ⟨entry, hentry, rfl⟩ := List.mem_map.mp hfound
      have hgone := h.joined entry hentry hjoined
      have hsame : entry.task.step .close = entry.task := ActorTask.step_of_gone hgone
      simpa [stepEntry, hsame] using hgone
  · have hworkers : (dispatcher.batchActors.map (stepEntry .close)).map
        (fun entry => entry.task.worker) = dispatcher.router.workers := by
      rw [List.map_map]
      exact List.map_congr_left fun entry _ => ActorTask.worker_close entry.task
    have hnext : router { dispatcher with
        batchActors := dispatcher.batchActors.map (stepEntry .close)
        phase := .draining } = dispatcher.router := by
      simp only [router, hworkers]
    rw [hnext]

theorem recv_simulates (h : DispatcherInv dispatcher) (hphase : dispatcher.phase = .running) :
    Simulates dispatcher dispatcher.recv := by
  unfold recv
  split
  · rename_i command rx hrx
    cases command with
    | publish msg => exact receive_publish h hphase hrx
    | flush tx => exact receive_flush h hphase hrx
    | resumePublish orderingKey => exact receive_resumePublish h hphase hrx
  · rename_i hrx
    split_ifs with hclosed
    · exact receive_none h hrx
    · exact ⟨h, .refl⟩

/-- No task of an actor panics. -/
def Event.Calm : Event → Prop
  | actor _ event => event.Calm
  | _ => True

theorem Simulates.refl (h : DispatcherInv dispatcher) : Simulates dispatcher dispatcher :=
  ⟨h, .refl⟩

/-- A command enters the channel. -/
theorem DispatcherInv.send (h : DispatcherInv dispatcher) (haccepts : dispatcher.accepts = true)
    (rx : List ToDispatcher) (issued : ℕ) (published : List BundledMessage) :
    DispatcherInv { dispatcher with rx := rx, issued := issued, published := published } := by
  have hphase : dispatcher.phase = .running := by
    simp only [accepts, Bool.and_eq_true, decide_eq_true_eq] at haccepts
    exact haccepts.2
  exact ⟨h.tasks, h.running, h.stopped, fun hne => absurd hphase hne, h.joined, h.ended⟩

theorem router_send (command : ToDispatcher) (issued : ℕ) (published : List BundledMessage) :
    router { dispatcher with
      rx := dispatcher.rx ++ [command]
      issued := issued
      published := published } =
      { dispatcher.router with
        commands := dispatcher.router.commands ++ [command.command]
        issued := issued
        published := published } := by
  simp [router]

theorem publish_simulates (h : DispatcherInv dispatcher) (msg : Message) :
    Simulates dispatcher (dispatcher.step (.publish msg)) := by
  simp only [step]
  split_ifs with haccepts
  · refine ⟨h.send haccepts _ _ _, ?_⟩
    rw [router_send]
    exact .single (.publish (BundledMessage.mk msg dispatcher.issued) rfl)
  · exact .refl h

theorem flush_simulates (h : DispatcherInv dispatcher) :
    Simulates dispatcher (dispatcher.step .flush) := by
  simp only [step]
  split_ifs with haccepts
  · refine ⟨h.send haccepts _ _ dispatcher.published, ?_⟩
    rw [router_send (.flush dispatcher.issued) _ dispatcher.published]
    exact .single .flush
  · exact .refl h

theorem resumePublish_simulates (h : DispatcherInv dispatcher) (orderingKey : String) :
    Simulates dispatcher (dispatcher.step (.resumePublish orderingKey)) := by
  simp only [step]
  split_ifs with haccepts
  · refine ⟨h.send haccepts _ dispatcher.issued dispatcher.published, ?_⟩
    rw [router_send (.resumePublish orderingKey) dispatcher.issued dispatcher.published]
    exact .single .other
  · exact .refl h

theorem joinNext_simulates (h : DispatcherInv dispatcher) (index : ℕ) :
    Simulates dispatcher (dispatcher.step (.joinNext index)) := by
  simp only [step]
  split
  · rename_i entry hentry
    split_ifs with hjoin
    · rw [Bool.and_eq_true] at hjoin
      have hinv := h.tasks entry (List.mem_of_getElem? hentry)
      have hworkers : (dispatcher.batchActors.set index { entry with joined := true }).map
          (fun entry => entry.task.worker) = dispatcher.router.workers := by
        rw [List.map_set]
        obtain ⟨hlt, hworker⟩ :=
          List.getElem?_eq_some_iff.mp (router_workers_getElem? hentry)
        rw [← hworker]
        exact List.set_getElem_self hlt
      refine ⟨@DispatcherInv.set _ h _ _ { entry with joined := true } hentry hinv rfl id
        fun _ => hjoin.1, ?_⟩
      rw [router_with rfl hworkers]
      exact .refl
    · exact .refl h
  · exact .refl h

theorem finish_simulates (h : DispatcherInv dispatcher) :
    Simulates dispatcher (dispatcher.step .finish) := by
  simp only [step]
  split_ifs with hfinish
  · simp only [Bool.and_eq_true, decide_eq_true_eq, List.all_eq_true] at hfinish
    refine ⟨⟨h.tasks, by simp, by simp, fun _ => h.rx (by simp [hfinish.1]), h.joined, ?_⟩, .refl⟩
    intro _ entry hentry
    exact h.joined entry hentry (hfinish.2 entry hentry)
  · exact .refl h

theorem work_simulates (h : DispatcherInv dispatcher) {index : ℕ} {entry : ActorEntry}
    {event : BatchActor.Event} (hentry : dispatcher.batchActors[index]? = some entry)
    (hinternal : event.IsInternal) (hcalm : event.Calm) :
    Simulates dispatcher { dispatcher with
      batchActors := dispatcher.batchActors.set index (stepEntry event entry) } := by
  have hmem := List.mem_of_getElem? hentry
  have hinv := h.tasks entry hmem
  have hgone : entry.task.isGone = true → (stepEntry event entry).task.isGone = true := by
    intro hgone
    have hsame : entry.task.step event = entry.task := ActorTask.step_of_gone hgone
    simpa [stepEntry, hsame] using hgone
  constructor
  · exact h.set hentry (hinv.step hcalm) (hinv.closed_step hinternal) hgone
      fun hjoined => hgone (h.joined entry hmem hjoined)
  · have hworkers : (dispatcher.batchActors.set index (stepEntry event entry)).map
        (fun entry => entry.task.worker) =
        dispatcher.router.workers.set index (entry.task.step event).worker := List.map_set
    rw [router_with rfl hworkers]
    exact .single (.work index _ _ (router_workers_getElem? hentry) (hinv.steps hinternal))

theorem actor_simulates (h : DispatcherInv dispatcher) (index : ℕ) {event : BatchActor.Event}
    (hcalm : event.Calm) : Simulates dispatcher (dispatcher.step (.actor index event)) := by
  cases hentry : dispatcher.batchActors[index]? with
  | none =>
      rw [step_actor_of_none hentry]
      exact .refl h
  | some entry =>
      cases event with
      | send command =>
          simp only [step]
          exact .refl h
      | close =>
          simp only [step]
          exact .refl h
      | _ =>
          simp only [step, hentry, h.stopped, if_false]
          exact work_simulates h hentry trivial hcalm

/-- A worker has passed the barrier if its actor has flushed. -/
theorem hasPassed_of_hasFlushed (h : DispatcherInv dispatcher) {tx : ℕ} {entry : ActorEntry}
    (hentry : entry ∈ dispatcher.batchActors) (hflushed : dispatcher.hasFlushed tx entry = true) :
    entry.task.worker.HasPassed tx := by
  simp only [hasFlushed, Bool.or_eq_true, h.stopped, decide_false, Bool.false_eq_true,
    or_false] at hflushed
  obtain hcontains | hgone := hflushed
  · refine .inl ?_
    rw [ActorTask.acknowledged_eq]
    simpa using hcontains
  · exact .inr ((h.tasks entry hentry).gone hgone).2

theorem answer_simulates (h : DispatcherInv dispatcher) (index : ℕ) :
    Simulates dispatcher (dispatcher.step (.answer index)) := by
  simp only [step]
  split
  · rename_i task htask
    split_ifs with hall
    · rw [List.all_eq_true] at hall
      refine ⟨⟨h.tasks, h.running, h.stopped, h.rx, h.joined, h.ended⟩, ?_⟩
      have hflush : dispatcher.router.flushes[index]? = some (task.tx, task.actors) := by
        simp [router, htask]
      have hpassed : ∀ w ∈ dispatcher.router.workers.take task.actors, w.HasPassed task.tx := by
        intro w hw
        rw [router, ← List.map_take] at hw
        obtain ⟨entry, hentry, rfl⟩ := List.mem_map.mp hw
        exact hasPassed_of_hasFlushed h (List.mem_of_mem_take hentry) (hall entry hentry)
      have hnext : router { dispatcher with
          flushTasks := dispatcher.flushTasks.eraseIdx index
          answered := dispatcher.answered ++ [task.tx] } =
          { dispatcher.router with
            flushes := dispatcher.router.flushes.eraseIdx index
            answered := dispatcher.router.answered ++ [task.tx] } := by
        simp [router, List.eraseIdx_map]
      rw [hnext]
      exact .single (.answer index task.tx task.actors hflush hpassed)
    · exact .refl h
  · exact .refl h

theorem step_simulates (h : DispatcherInv dispatcher) {event : Event} (hcalm : event.Calm) :
    Simulates dispatcher (dispatcher.step event) := by
  cases event with
  | publish msg => exact publish_simulates h msg
  | flush => exact flush_simulates h
  | resumePublish orderingKey => exact resumePublish_simulates h orderingKey
  | close => exact ⟨⟨h.tasks, h.running, h.stopped, h.rx, h.joined, h.ended⟩, .refl⟩
  | recv =>
      simp only [step]
      split_ifs with hphase
      · exact recv_simulates h hphase
      · exact .refl h
  | joinNext index => exact joinNext_simulates h index
  | finish => exact finish_simulates h
  | actor index event => exact actor_simulates h index hcalm
  | answer index => exact answer_simulates h index

/-! ## Runs -/

theorem run_simulates (h : DispatcherInv dispatcher) {events : List Event}
    (hcalm : ∀ event ∈ events, event.Calm) : Simulates dispatcher (dispatcher.run events) := by
  induction events generalizing dispatcher with
  | nil => exact .refl h
  | cons event events ih =>
      obtain ⟨hinv, hstep⟩ := step_simulates h (hcalm event List.mem_cons_self)
      obtain ⟨hafter, hsteps⟩ := ih hinv fun later hlater =>
        hcalm later (List.mem_cons_of_mem event hlater)
      exact ⟨hafter, hstep.trans hsteps⟩

theorem dispatcherInv_new (topicName : String) (batchingOptions : BatchingOptions) :
    DispatcherInv (new topicName batchingOptions) where
  tasks := by simp [new]
  running := by simp [new]
  stopped := by simp [new]
  rx := by simp [new]
  joined := by simp [new]
  ended := by simp [new]

theorem router_inv_new (topicName : String) (batchingOptions : BatchingOptions) :
    Router.Inv BundledMessage.tx (new topicName batchingOptions).router where
  sorted := by simp [router, new, Router.later]
  ordered := by simp [router, new]
  flushes := by simp [router, new]
  answered := by simp [router, new]
  conserved := by simp [router, new, Router.queued]
  stamps := by simp [router, new]

/-! ## What publishers can rely on -/

/-- The answers given by all actors. -/
def answers (dispatcher : Dispatcher) : List Answer :=
  dispatcher.batchActors.flatMap fun entry => entry.task.batchActor.answers

/-- The messages whose senders have not been consumed, in the channels and in the actors. -/
def waiting (dispatcher : Dispatcher) : Multiset BundledMessage := dispatcher.router.waiting

end Dispatcher

/-- An actor that waits for events with messages has a batch in flight or a timer. -/
def ActorTask.Armed : ActorTask → Prop
  | concurrent actor => actor.phase = .selecting → actor.batch.messages ≠ [] →
      actor.inflight ≠ [] ∨ actor.timer = true
  | sequential actor => actor.phase = .selecting → actor.paused = false →
      actor.pendingMsgs ≠ [] ∨ actor.batch.messages ≠ [] →
      actor.inflight ≠ [] ∨ actor.timer = true

namespace Dispatcher

structure Delivers (dispatcher : Dispatcher) : Prop where
  nodup : (dispatcher.published.map BundledMessage.tx).Nodup
  once : dispatcher.waiting + ↑(dispatcher.answers.map Answer.message) = ↑dispatcher.published
  answers : ∀ answer ∈ dispatcher.answers, answer.consumption ≠ .unwound
  flushed : ∀ tx ∈ dispatcher.answered, ∀ msg ∈ dispatcher.published, msg.tx < tx →
    (dispatcher.answers.map Answer.message).count msg = 1
  armed : ∀ entry ∈ dispatcher.batchActors, entry.task.Armed
  stopped : dispatcher.phase ≠ .stopped
  ended : dispatcher.phase = .ended →
    (dispatcher.answers.map Answer.message).Perm dispatcher.published

theorem consumed_router (dispatcher : Dispatcher) :
    dispatcher.router.consumed = ↑(dispatcher.answers.map Answer.message) := by
  rw [Router.consumed, router, answers]
  induction dispatcher.batchActors with
  | nil => rfl
  | cons entry batchActors ih =>
      simp only [List.map_cons, List.sum_cons, List.flatMap_cons, List.map_append,
        ← Multiset.coe_add, ih, ActorTask.consumed_eq]

theorem DispatcherInv.armed (h : DispatcherInv dispatcher) {entry : ActorEntry}
    (hentry : entry ∈ dispatcher.batchActors) : entry.task.Armed := by
  have hinv := h.tasks entry hentry
  cases htask : entry.task with
  | concurrent actor =>
      rw [htask] at hinv
      intro hphase hbatch
      exact .inr (hinv.1.timer hphase hbatch)
  | sequential actor =>
      rw [htask] at hinv
      intro hphase hpaused hmessages
      exact .inr (hinv.1.timer hphase hmessages)

/-- Nothing waits anywhere once the dispatcher has ended. -/
theorem DispatcherInv.waiting_eq_zero (h : DispatcherInv dispatcher)
    (hended : dispatcher.phase = .ended) : dispatcher.waiting = 0 := by
  have hqueued : dispatcher.router.queued = 0 := by
    simp [Router.queued, router, h.rx (by simp [hended])]
  have hworkers : (dispatcher.router.workers.map Worker.waiting).sum = 0 := by
    refine List.sum_eq_zero ?_
    intro waiting hwaiting
    simp only [router, List.map_map, List.mem_map] at hwaiting
    obtain ⟨entry, hentry, rfl⟩ := hwaiting
    exact ((h.tasks entry hentry).gone (h.ended hended entry hentry)).2
  rw [waiting, Router.waiting, hqueued, hworkers, add_zero]

theorem DispatcherInv.delivers (h : DispatcherInv dispatcher)
    (hrouter : Router.Inv BundledMessage.tx dispatcher.router) : Delivers dispatcher := by
  have honce : dispatcher.waiting + ↑(dispatcher.answers.map Answer.message) =
      ↑dispatcher.published := by
    rw [← consumed_router]
    exact hrouter.waiting_add_consumed
  exact {
    nodup := hrouter.nodup
    once := honce
    answers := by
      intro answer hanswer
      obtain ⟨entry, hentry, hmem⟩ := List.mem_flatMap.mp hanswer
      exact (h.tasks entry hentry).calm.answers answer hmem
    flushed := by
      intro tx htx msg hmsg hlt
      have hcount := hrouter.consumed_of_answered htx hmsg hlt
      rwa [consumed_router, Multiset.coe_count] at hcount
    armed := fun entry hentry => h.armed hentry
    stopped := h.stopped
    ended := by
      intro hended
      rw [h.waiting_eq_zero hended, zero_add] at honce
      exact Multiset.coe_eq_coe.mp honce }

/-- Flush is a barrier, and no message is lost. -/
theorem run_consumes (topicName : String) (batchingOptions : BatchingOptions)
    (events : List Event) (hcalm : ∀ event ∈ events, event.Calm) :
    Delivers ((new topicName batchingOptions).run events) := by
  obtain ⟨hinv, hsteps⟩ := run_simulates (dispatcherInv_new topicName batchingOptions) hcalm
  exact hinv.delivers ((router_inv_new topicName batchingOptions).steps hsteps)

/-- A message without a key, one with a key, a flush, and what it takes to answer it. -/
theorem run_consumes_flush :
    let message := fun key => (⟨[1, 2], [], key⟩ : Message)
    let events : List Event :=
      [.publish (message ""), .publish (message "key"), .flush, .recv, .recv, .recv, .close, .recv,
        .actor 0 .recv, .actor 0 .recv, .actor 0 (.complete 0 (.ok ["id"])), .actor 0 (.join 0),
        .actor 0 (.join 0), .actor 1 .recv, .actor 1 .timer, .actor 1 (.join 0),
        .actor 1 (.complete 0 (.err ⟨"unavailable"⟩)), .actor 1 (.join 0), .actor 1 .recv,
        .answer 0, .actor 0 .recv, .actor 0 (.join 0), .actor 1 .recv, .joinNext 0, .joinNext 1,
        .finish]
    let dispatcher := (new "topic" ⟨100, 1000⟩).run events
    Delivers dispatcher ∧ dispatcher.answered = [2] ∧ dispatcher.phase = .ended := by
  refine ⟨run_consumes "topic" ⟨100, 1000⟩ _ ?_, by decide +kernel, by decide +kernel⟩
  simp [Event.Calm, BatchActor.Event.Calm]

end Dispatcher

end GoogleCloudRust.Publisher
