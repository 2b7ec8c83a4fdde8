import Mathlib.Tactic.Abel
import GoogleCloudRust.Library.Barrier
import GoogleCloudRust.Verification.BatchActor.Sequential

/-! # Sequential batch actors as workers with barriers

An actor holds the messages it has received until their senders are consumed, and signals a
flush when it holds none. -/

namespace GoogleCloudRust.Publisher

open Barrier

def ToBatchActor.command : ToBatchActor → Command BundledMessage
  | publish msg => .item msg
  | flush tx => .barrier tx
  | resumePublish => .other

/-- The messages whose senders the task still has. -/
def Task.running (task : Task) : List BundledMessage :=
  match task.outcome with
  | none => task.messages
  | some _ => []

namespace BatchActor

def running (actor : BatchActor) : List BundledMessage := actor.inflight.flatMap Task.running

/-- The messages of the batch and of the tasks. -/
def held (actor : BatchActor) : Multiset BundledMessage := ↑actor.batch.messages + ↑actor.running

/-- What happens inside of an actor. -/
def Event.IsInternal : Event → Prop
  | send _ | close => False
  | recv | timer | join _ | complete _ _ => True

/-- No task panics. -/
def Event.Calm : Event → Prop
  | complete _ .panic => False
  | _ => True

end BatchActor

/-! ## Tasks -/

theorem messages_zipMessageIds (txs : List BundledMessage) (messageIds : List String) :
    (zipMessageIds txs messageIds).map Answer.message = txs := by
  induction txs generalizing messageIds with
  | nil => rfl
  | cons tx txs ih =>
      cases messageIds with
      | nil => simpa [zipMessageIds] using ih []
      | cons messageId messageIds => simpa [zipMessageIds] using ih messageIds

theorem messages_map (txs : List BundledMessage) (consumption : Consumption) :
    (txs.map fun tx => (⟨tx, consumption⟩ : Answer)).map Answer.message = txs := by
  simp [Function.comp_def]

/-- Every sender of a batch is consumed. -/
theorem messages_batchResolvePublishFutures (txs : List BundledMessage) (response : Response) :
    (batchResolvePublishFutures txs response).1.map Answer.message = txs := by
  cases response with
  | ok messageIds => exact messages_zipMessageIds txs messageIds
  | err error => exact messages_map txs (.rpc error)
  | panic => exact messages_map txs .unwound

theorem zipMessageIds_ne_unwound (txs : List BundledMessage) (messageIds : List String) :
    ∀ answer ∈ zipMessageIds txs messageIds, answer.consumption ≠ .unwound := by
  induction txs generalizing messageIds with
  | nil => simp [zipMessageIds]
  | cons tx txs ih =>
      cases messageIds with
      | nil => simpa [zipMessageIds] using ih []
      | cons messageId messageIds => simpa [zipMessageIds] using ih messageIds

/-- Without panics no sender is lost in a task. -/
structure Calm (actor : BatchActor) : Prop where
  answers : ∀ answer ∈ actor.answers, answer.consumption ≠ .unwound
  inflight : ∀ task ∈ actor.inflight, task.outcome ≠ some .panicked

theorem calm_batchResolvePublishFutures (txs : List BundledMessage) {response : Response}
    (h : response ≠ .panic) :
    (∀ answer ∈ (batchResolvePublishFutures txs response).1, answer.consumption ≠ .unwound) ∧
      (batchResolvePublishFutures txs response).2 ≠ .panicked := by
  cases response with
  | ok messageIds =>
      exact ⟨zipMessageIds_ne_unwound txs messageIds, by simp [batchResolvePublishFutures]⟩
  | err error => simp [batchResolvePublishFutures]
  | panic => exact absurd rfl h

/-! ## Sequential actors -/

namespace SequentialBatchActor

variable {actor next moved : SequentialBatchActor} {event : BatchActor.Event}

def SequentialPhase.current : SequentialPhase → Option ℕ
  | .flushing _ (.flush tx) => some tx
  | _ => none

def worker (actor : SequentialBatchActor) : Worker BundledMessage where
  inbox := actor.rx.map ToBatchActor.command
  held := ↑actor.pendingMsgs + actor.held
  consumed := ↑(actor.answers.map Answer.message)
  current := SequentialPhase.current actor.phase
  acknowledged := actor.flushed

theorem Moves.held_eq (h : Moves actor moved) (hinflight : actor.inflight = []) :
    (↑moved.pendingMsgs + moved.held : Multiset BundledMessage) =
      ↑actor.pendingMsgs + actor.held := by
  cases h with
  | gather batch hbatch =>
      simp only [BatchActor.held, BatchActor.running, hbatch, ← Multiset.coe_add, Multiset.coe_nil]
      abel
  | send batch messages pendingMsgs hne hline hbatch =>
      have hsame : (↑messages + ↑pendingMsgs : Multiset BundledMessage) =
          ↑actor.batch.messages + ↑actor.pendingMsgs := by
        rw [Multiset.coe_add, Multiset.coe_add, hline]
      simp only [BatchActor.held, BatchActor.running, hbatch, hinflight, List.flatMap_nil,
        List.flatMap_cons, List.append_nil, Task.running, Multiset.coe_nil, zero_add, add_zero]
      rw [add_comm, hsame, add_comm]

theorem Moves.worker_eq (h : Moves actor moved) (hinflight : actor.inflight = []) :
    moved.worker = actor.worker := by
  obtain ⟨hrx, -, -, -, hanswers, hflushed, -⟩ := h.frame
  rw [worker, worker, hrx, hanswers, hflushed, h.phase_eq, h.held_eq hinflight]

theorem Continues.current_eq {phase later : SequentialPhase} (h : Continues phase later) :
    SequentialPhase.current later = SequentialPhase.current phase := by
  cases h with
  | select => rfl
  | loop stage cause => cases cause <;> rfl
  | last stage cause hne => cases cause <;> rfl

theorem Joined.running_eq (h : Joined actor) : actor.running = [] := by
  obtain hnone | ⟨messages, hok⟩ := h
  · rw [BatchActor.running, hnone, List.flatMap_nil]
  · rw [BatchActor.running, hok]
    rfl

theorem Failing.running_eq (h : Failing actor) : actor.running = [] := by
  obtain ⟨messages, outcome, hinflight, -⟩ := h
  rw [BatchActor.running, hinflight]
  rfl

theorem held_eq_zero (hpending : actor.pendingMsgs = []) (hbatch : actor.batch.messages = [])
    (hrunning : actor.running = []) : actor.worker.held = 0 := by
  rw [worker, BatchActor.held, hpending, hbatch, hrunning]
  rfl

theorem inbox_eq {command : ToBatchActor} {rx : List ToBatchActor} (h : actor.rx = command :: rx) :
    actor.worker.inbox = command.command :: rx.map ToBatchActor.command := by
  rw [worker, h]
  rfl

/-- A message is received and waits. -/
theorem take_steps {msg : BundledMessage} (hrx : actor.rx = .publish msg :: next.rx)
    (hpending : next.pendingMsgs = actor.pendingMsgs ++ [msg]) (hbatch : next.batch = actor.batch)
    (hinflight : next.inflight = actor.inflight) (hanswers : next.answers = actor.answers)
    (hphase : next.phase = actor.phase) (hflushed : next.flushed = actor.flushed) :
    Steps actor.worker next.worker := by
  refine .single (.take msg (inbox_eq hrx) ?_ ?_ ?_ hflushed)
  · rw [worker, worker, BatchActor.held, BatchActor.held, BatchActor.running, BatchActor.running,
      hpending, hbatch, hinflight, ← Multiset.coe_add, Multiset.coe_singleton]
    exact add_right_comm _ _ _
  · rw [worker, worker, hanswers]
  · rw [worker, worker, hphase]

/-- Once nothing is left the flush is signalled, if there is one. -/
theorem finish_steps (hinv : SequentialInv actor) {cause : FlushCause} {paused : Bool}
    (hphase : actor.phase = .flushing .last cause) (hrunning : actor.running = []) :
    Steps actor.worker
      (({ actor with inflight := [], paused := paused }.afterFlushAll cause).worker) := by
  obtain ⟨hpending, hbatch⟩ := hinv.last cause hphase
  have hheld := held_eq_zero hpending hbatch hrunning
  have hafter :
      (worker (afterFlushAll { actor with inflight := [], paused := paused } cause)).held = 0 := by
    cases cause with
    | timer => exact held_eq_zero hpending hbatch rfl
    | flush tx => exact held_eq_zero hpending hbatch rfl
    | close => exact held_eq_zero hpending hbatch rfl
  have hcurrent : actor.worker.current = SequentialPhase.current (.flushing .last cause) := by
    rw [worker, hphase]
  cases cause with
  | timer => exact .of_eq (Worker.ext rfl (hheld.trans hafter.symm) rfl hcurrent rfl)
  | flush tx => exact .single (.acknowledge tx rfl hheld hafter rfl hcurrent rfl rfl)
  | close => exact .of_eq (Worker.ext rfl (hheld.trans hafter.symm) rfl hcurrent rfl)

/-- What happens inside of a sequential actor is what happens inside of a worker. -/
theorem Step.worker_steps (h : Step actor event next) (hinv : SequentialInv actor)
    (hevent : event.IsInternal) : Steps actor.worker next.worker := by
  cases h with
  | idle => exact .refl
  | send command hphase hclosed => exact hevent.elim
  | close hphase => exact hevent.elim
  | complete messages response hinflight =>
      have hmessages := messages_batchResolvePublishFutures messages response
      refine .single (.consume ↑messages rfl ?_ ?_ rfl rfl)
      · simp only [worker, BatchActor.held, BatchActor.running, hinflight, List.flatMap_cons,
          List.flatMap_nil, List.append_nil, Task.running, Multiset.coe_nil, add_zero]
        exact (add_assoc _ _ _).symm
      · rw [worker, worker, List.map_append, hmessages, Multiset.coe_add]
  | beginFlush cause rx hphase hpaused hrx =>
      have hcurrent : actor.worker.current = none := by
        rw [worker, hphase]
        rfl
      obtain ⟨rfl, rfl⟩ | ⟨tx, rfl, hrx⟩ | ⟨rfl, rfl, hrx, hclosed⟩ := hrx
      · exact .of_eq (Worker.ext rfl rfl rfl hcurrent rfl)
      · exact .single (.start tx (inbox_eq hrx) rfl rfl hcurrent rfl rfl)
      · exact .of_eq (Worker.ext (congrArg (List.map ToBatchActor.command) hrx) rfl rfl hcurrent rfl)
  | refuse msg rx hphase hpaused hrx =>
      -- Taken from the channel and answered at once.
      have hwait := @take_steps actor { actor with
        rx := rx
        pendingMsgs := actor.pendingMsgs ++ [msg] } msg hrx rfl rfl rfl rfl rfl rfl
      refine hwait.tail (.consume {msg} rfl ?_ ?_ rfl rfl)
      · rw [worker, worker, ← Multiset.coe_add, Multiset.coe_singleton]
        exact add_right_comm _ _ _
      · rw [worker, worker, List.map_append, ← Multiset.coe_add]
        rfl
  | signal tx rx hphase hpaused hrx =>
      obtain ⟨hpending, hbatch, hinflight⟩ := hinv.paused hpaused
      have hcurrent : actor.worker.current = none := by
        rw [worker, hphase]
        rfl
      have hheld := held_eq_zero hpending hbatch (by rw [BatchActor.running, hinflight]; rfl)
      -- A paused actor holds nothing, so the flush is signalled at once.
      have hstart : Barrier.Step actor.worker
          { actor.worker with inbox := rx.map ToBatchActor.command, current := some tx } :=
        .start tx (inbox_eq hrx) rfl rfl hcurrent rfl rfl
      exact .tail (.single hstart) (.acknowledge tx rfl hheld hheld rfl rfl hcurrent rfl)
  | resume rx hphase hrx => exact .single (.skip (inbox_eq hrx) rfl rfl rfl rfl)
  | stop hphase hpaused hrx hclosed =>
      refine .of_eq (Worker.ext rfl rfl rfl ?_ rfl)
      rw [worker, hphase]
      rfl
  | queue msg rx hphase hpaused hrx hinflight =>
      exact take_steps hrx rfl rfl rfl rfl rfl rfl
  | accept msg rx moved timer hphase hpaused hrx hinflight hmoves htimer =>
      have hsame : worker { moved with timer := timer } = moved.worker := rfl
      rw [hsame, hmoves.worker_eq hinflight]
      exact take_steps hrx rfl rfl rfl rfl rfl rfl
  | arrange moved phase hjoined hmoves hphase hlast =>
      have hmoved := hmoves.worker_eq rfl
      have hsame : worker { actor with inflight := [] } = actor.worker := by
        refine Worker.ext rfl ?_ rfl rfl rfl
        rw [worker, worker, BatchActor.held, BatchActor.held, hjoined.running_eq]
        rfl
      have hcurrent : SequentialPhase.current phase = moved.worker.current := by
        rw [hphase.current_eq, hmoved, hsame]
        rfl
      have hnext : worker { moved with phase := phase } = moved.worker :=
        Worker.ext rfl rfl rfl hcurrent rfl
      rw [hnext, hmoved, hsame]
  | fail phase hfailing hphase =>
      refine .single (.consume ↑actor.pendingMsgs rfl ?_ ?_ hphase.current_eq rfl)
      · rw [worker, worker, BatchActor.held, BatchActor.held, hfailing.running_eq]
        exact (add_comm _ _).trans (congrArg (· + _) (zero_add _).symm)
      · rw [worker, worker, List.map_append, messages_map, Multiset.coe_add]
  | finish cause paused hphase hpaused =>
      refine finish_steps hinv hphase ?_
      obtain ⟨hjoined, -⟩ | ⟨hfailing, -⟩ := hpaused
      · exact hjoined.running_eq
      · exact hfailing.running_eq

theorem Moves.calm (h : Moves actor moved) (hcalm : Calm actor.toBatchActor) :
    Calm moved.toBatchActor := by
  cases h with
  | gather batch hbatch => exact ⟨hcalm.answers, hcalm.inflight⟩
  | send batch messages pendingMsgs hne hline hbatch => exact ⟨hcalm.answers, by simp⟩

theorem Step.calm (h : Step actor event next) (hcalm : Calm actor.toBatchActor)
    (hevent : event.Calm) : Calm next.toBatchActor := by
  cases h with
  | complete messages response hinflight =>
      have hresponse : response ≠ .panic := by
        rintro rfl
        exact hevent
      obtain ⟨hanswers, houtcome⟩ := calm_batchResolvePublishFutures messages hresponse
      constructor
      · intro answer hanswer
        exact (List.mem_append.mp hanswer).elim (hcalm.answers answer) (hanswers answer)
      · simpa using houtcome
  | refuse msg rx hphase hpaused hrx =>
      refine ⟨?_, hcalm.inflight⟩
      intro answer hanswer
      obtain hold | hnew := List.mem_append.mp hanswer
      · exact hcalm.answers answer hold
      · obtain rfl := List.mem_singleton.mp hnew
        simp
  | accept msg rx moved timer hphase hpaused hrx hinflight hmoves htimer =>
      exact ⟨(hmoves.calm ⟨hcalm.answers, hcalm.inflight⟩).answers,
        (hmoves.calm ⟨hcalm.answers, hcalm.inflight⟩).inflight⟩
  | arrange moved phase hjoined hmoves hphase hlast =>
      exact hmoves.calm ⟨hcalm.answers, by simp⟩
  | fail phase hfailing hphase =>
      refine ⟨?_, by simp⟩
      intro answer hanswer
      obtain hold | hnew := List.mem_append.mp hanswer
      · exact hcalm.answers answer hold
      · obtain ⟨publish, -, rfl⟩ := List.mem_map.mp hnew
        simp
  | finish cause paused hphase hpaused =>
      cases cause with
      | timer => exact ⟨hcalm.answers, by simp [afterFlushAll]⟩
      | flush tx => exact ⟨hcalm.answers, by simp [afterFlushAll]⟩
      | close => exact ⟨hcalm.answers, by simp [afterFlushAll]⟩
  | _ => exact ⟨hcalm.answers, hcalm.inflight⟩

theorem step_of_ended (h : actor.phase = .ended) : actor.step event = actor := by
  rw [step.eq_def, if_pos h]

theorem step_send (hphase : actor.phase ≠ .ended) (hclosed : actor.closed = false)
    (command : ToBatchActor) :
    actor.step (.send command) = { actor with rx := actor.rx ++ [command] } := by
  simp [step.eq_def, hphase, hclosed]

theorem step_close (hphase : actor.phase ≠ .ended) :
    actor.step .close = { actor with closed := true } := by
  simp [step.eq_def, hphase]

/-- Only the dispatcher closes the channel. -/
theorem Step.closed_eq (h : Step actor event next) (hevent : event.IsInternal) :
    next.closed = actor.closed := by
  cases h with
  | close hphase => exact hevent.elim
  | accept msg rx moved timer hphase hpaused hrx hinflight hmoves htimer =>
      exact hmoves.frame.2.1
  | arrange moved phase hjoined hmoves hphase hlast => exact hmoves.frame.2.1
  | finish cause paused hphase hpaused =>
      cases cause with
      | timer => rfl
      | flush tx => rfl
      | close => rfl
  | _ => rfl

end SequentialBatchActor

/-! ## Tasks of an actor -/

namespace BatchActor

theorem held_flush (actor : BatchActor) : actor.flush.held = actor.held := by
  by_cases h : actor.batch.messages = []
  · rw [flush_of_empty h]
  · rw [flush_of_ne h]
    simp only [held, running, Batch.drainMessages, List.flatMap_append, List.flatMap_cons,
      List.flatMap_nil, List.append_nil, Task.running, Multiset.coe_nil, zero_add]
    rw [← Multiset.coe_add, add_comm]

theorem flush_frame (actor : BatchActor) :
    actor.flush.rx = actor.rx ∧ actor.flush.closed = actor.closed ∧
      actor.flush.answers = actor.answers ∧ actor.flush.flushed = actor.flushed := by
  by_cases h : actor.batch.messages = []
  · rw [flush_of_empty h]
    simp
  · rw [flush_of_ne h]
    simp

theorem calm_flush {actor : BatchActor} (h : Calm actor) : Calm actor.flush := by
  by_cases hempty : actor.batch.messages = []
  · rw [flush_of_empty hempty]
    exact h
  · rw [flush_of_ne hempty]
    refine ⟨h.answers, ?_⟩
    intro task htask
    obtain hold | hnew := List.mem_append.mp htask
    · exact h.inflight task hold
    · obtain rfl := List.mem_singleton.mp hnew
      simp

/-- A task that has ended no longer has its senders. -/
theorem running_eraseIdx {inflight : List Task} {index : ℕ} {messages : List BundledMessage}
    {outcome : Outcome} (h : inflight[index]? = some ⟨messages, some outcome⟩) :
    (inflight.eraseIdx index).flatMap Task.running = inflight.flatMap Task.running := by
  induction inflight generalizing index with
  | nil => cases h
  | cons task inflight ih =>
      cases index with
      | zero =>
          obtain rfl := Option.some.inj h
          rfl
      | succ index =>
          rw [List.eraseIdx_cons_succ, List.flatMap_cons, List.flatMap_cons]
          rw [ih (by simpa using h)]

theorem running_set {inflight : List Task} {index : ℕ} {messages : List BundledMessage}
    (outcome : Outcome) (h : inflight[index]? = some ⟨messages, none⟩) :
    (↑(inflight.flatMap Task.running) : Multiset BundledMessage) =
      ↑((inflight.set index ⟨messages, some outcome⟩).flatMap Task.running) + ↑messages := by
  induction inflight generalizing index with
  | nil => cases h
  | cons task inflight ih =>
      cases index with
      | zero =>
          obtain rfl := Option.some.inj h
          simp only [List.set_cons_zero, List.flatMap_cons, Task.running, List.nil_append]
          rw [← Multiset.coe_add, add_comm]
      | succ index =>
          simp only [List.set_cons_succ, List.flatMap_cons, ← Multiset.coe_add]
          rw [ih (by simpa using h), add_assoc]

end BatchActor

end GoogleCloudRust.Publisher
