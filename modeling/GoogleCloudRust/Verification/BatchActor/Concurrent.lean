import GoogleCloudRust.Verification.BatchActor.Workers

/-! # Concurrent batch actors as workers with barriers -/

namespace GoogleCloudRust.Publisher

open Barrier

def ConcurrentPhase.current : ConcurrentPhase → Option ℕ
  | joining (some tx) => some tx
  | _ => none

namespace ConcurrentBatchActor

variable {actor next moved : ConcurrentBatchActor} {event : BatchActor.Event}

def worker (actor : ConcurrentBatchActor) : Worker BundledMessage where
  inbox := actor.rx.map ToBatchActor.command
  held := actor.held
  consumed := ↑(actor.answers.map Answer.message)
  current := actor.phase.current
  acknowledged := actor.flushed

/-! ## Flushing -/

/-- What flushing the batch leaves as it is. -/
structure Kept (actor moved : ConcurrentBatchActor) : Prop where
  rx : moved.rx = actor.rx
  closed : moved.closed = actor.closed
  answers : moved.answers = actor.answers
  flushed : moved.flushed = actor.flushed
  phase : moved.phase = actor.phase

theorem Kept.trans {later : ConcurrentBatchActor} (h : Kept actor moved) (h' : Kept moved later) :
    Kept actor later where
  rx := h'.rx.trans h.rx
  closed := h'.closed.trans h.closed
  answers := h'.answers.trans h.answers
  flushed := h'.flushed.trans h.flushed
  phase := h'.phase.trans h.phase

theorem flush_kept (actor : ConcurrentBatchActor) : Kept actor actor.flush := by
  obtain ⟨hrx, hclosed, hanswers, hflushed⟩ := actor.toBatchActor.flush_frame
  exact ⟨hrx, hclosed, hanswers, hflushed, rfl⟩

/-- A message has been added. -/
structure Added (actor moved : ConcurrentBatchActor) (msg : BundledMessage) : Prop where
  kept : Kept actor moved
  held : moved.held = actor.held + {msg}
  calm : Calm actor.toBatchActor → Calm moved.toBatchActor

theorem push_added (actor : ConcurrentBatchActor) (msg : BundledMessage) :
    Added actor { actor with batch := actor.batch.push msg } msg where
  kept := ⟨rfl, rfl, rfl, rfl, rfl⟩
  held := by
    simp only [BatchActor.held, BatchActor.running, Batch.push, ← Multiset.coe_add,
      Multiset.coe_singleton]
    exact add_right_comm _ _ _
  calm := fun h => ⟨h.answers, h.inflight⟩

theorem Added.flush {msg : BundledMessage} (h : Added actor moved msg) :
    Added actor moved.flush msg where
  kept := h.kept.trans (flush_kept moved)
  held := moved.toBatchActor.held_flush.trans h.held
  calm := fun hcalm => BatchActor.calm_flush (h.calm hcalm)

theorem flush_added {msg : BundledMessage} (h : Added actor.flush moved msg) :
    Added actor moved msg where
  kept := (flush_kept actor).trans h.kept
  held := h.held.trans (congrArg (· + {msg}) actor.toBatchActor.held_flush)
  calm := fun hcalm => h.calm (BatchActor.calm_flush hcalm)

theorem addMsgAndFlush_added (actor : ConcurrentBatchActor) (msg : BundledMessage) :
    Added actor (actor.addMsgAndFlush msg) msg := by
  unfold addMsgAndFlush
  by_cases hadd : actor.batch.canAdd msg = true
  · simp only [hadd, Bool.not_true, Bool.false_eq_true, if_false]
    split_ifs with hthreshold
    · exact (push_added actor msg).flush
    · exact push_added actor msg
  · simp only [hadd, Bool.not_false, if_true]
    split_ifs with hthreshold
    · exact flush_added (push_added actor.flush msg).flush
    · exact flush_added (push_added actor.flush msg)

/-! ## What a step can do -/

structure ConcurrentInv (actor : ConcurrentBatchActor) : Prop where
  timer : actor.phase = .selecting → actor.batch.messages ≠ [] → actor.timer = true
  joining : ∀ tx, actor.phase = .joining tx → actor.batch.messages = []
  close : actor.phase = .joining none → actor.closed = true ∧ actor.rx = []
  ended : actor.phase = .ended → actor.closed = true ∧ actor.rx = [] ∧
    actor.batch.messages = [] ∧ actor.inflight = []
  alive : actor.phase ≠ .panicked

inductive Step (actor : ConcurrentBatchActor) :
    BatchActor.Event → ConcurrentBatchActor → Prop
  | idle {event : _} : Step actor event actor
  | send (command : ToBatchActor) (hphase : actor.phase ≠ .ended)
      (hclosed : actor.closed = false) :
      Step actor (.send command) { actor with rx := actor.rx ++ [command] }
  | close (hphase : actor.phase ≠ .ended) : Step actor .close { actor with closed := true }
  | complete (index : ℕ) (messages : List BundledMessage) (response : Response)
      (htask : actor.inflight[index]? = some ⟨messages, none⟩) (hphase : actor.phase ≠ .ended) :
      Step actor (.complete index response) { actor with
        inflight := actor.inflight.set index
          ⟨messages, some (batchResolvePublishFutures messages response).2⟩
        answers := actor.answers ++ (batchResolvePublishFutures messages response).1 }
  | joined {event : _} (index : ℕ) (messages : List BundledMessage) (outcome : Outcome)
      (htask : actor.inflight[index]? = some ⟨messages, some outcome⟩)
      (hphase : actor.phase ≠ .ended) :
      Step actor event { actor with inflight := actor.inflight.eraseIdx index }
  | flushTimer {event : _} (hphase : actor.phase = .selecting) :
      Step actor event { actor.flush with timer := false }
  | startJoin {event : _} (tx : Option ℕ) (rx : List ToBatchActor)
      (hphase : actor.phase = .selecting)
      (hrx : (∃ id, tx = some id ∧ actor.rx = .flush id :: rx) ∨
        (tx = none ∧ rx = [] ∧ actor.rx = [] ∧ actor.closed = true)) :
      Step actor event { flush { actor with rx := rx } with phase := .joining tx }
  | resume {event : _} (rx : List ToBatchActor) (hphase : actor.phase = .selecting)
      (hrx : actor.rx = .resumePublish :: rx) : Step actor event { actor with rx := rx }
  | accept {event : _} (msg : BundledMessage) (rx : List ToBatchActor)
      (moved : ConcurrentBatchActor) (timer : Bool) (hphase : actor.phase = .selecting)
      (hrx : actor.rx = .publish msg :: rx)
      (hadded : Added { actor with rx := rx, received := actor.received ++ [msg] } moved msg)
      (htimer : moved.batch.messages ≠ [] → timer = true) :
      Step actor event { moved with timer := timer }
  | finish {event : _} (tx : Option ℕ) (hphase : actor.phase = .joining tx)
      (hinflight : actor.inflight = []) : Step actor event (actor.afterJoinAll tx)

theorem join_step (hcalm : Calm actor.toBatchActor) (index : ℕ) :
    Step actor event (actor.join index) := by
  unfold join
  split
  · rename_i hphase
    split
    · rename_i outcome next hjoin
      obtain ⟨messages, htask, rfl⟩ := BatchActor.joinNext_eq_some hjoin
      exact .joined index messages outcome htask (by simp [hphase])
    · exact .idle
  · rename_i tx hphase
    split_ifs with hempty
    · exact .finish tx hphase (by simpa using hempty)
    · split
      · rename_i next hjoin
        obtain ⟨messages, htask, rfl⟩ := BatchActor.joinNext_eq_some hjoin
        exact absurd rfl (hcalm.inflight _ (List.mem_of_getElem? htask))
      · rename_i outcome next _ hjoin
        obtain ⟨messages, htask, rfl⟩ := BatchActor.joinNext_eq_some hjoin
        exact .joined index messages outcome htask (by simp [hphase])
      · exact .idle
  · exact .idle
  · exact .idle

theorem receive_step (hphase : actor.phase = .selecting) {command : Option ToBatchActor}
    {shared : BatchActor} (hrecv : actor.toBatchActor.recv = some (command, shared)) :
    Step actor event (receive { actor with toBatchActor := shared } command) := by
  obtain ⟨sent, rfl, hrx, hshared⟩ | ⟨rfl, hrx, hclosed, rfl⟩ := BatchActor.recv_eq_some hrecv
  · rw [hshared]
    cases sent with
    | publish msg =>
        have hadded := addMsgAndFlush_added
          { actor with rx := shared.rx, received := actor.received ++ [msg] } msg
        simp only [receive]
        split_ifs with hempty
        · refine .accept msg shared.rx _ false hphase hrx hadded ?_
          intro hne
          exact absurd (List.isEmpty_iff.mp hempty) hne
        · exact .accept msg shared.rx _ true hphase hrx hadded fun _ => rfl
    | flush tx => exact .startJoin (some tx) shared.rx hphase (.inl ⟨tx, rfl, hrx⟩)
    | resumePublish => exact .resume shared.rx hphase hrx
  · exact .startJoin none actor.rx hphase (.inr ⟨rfl, hrx, hrx, hclosed⟩)

theorem step_cases (hcalm : Calm actor.toBatchActor) (event : BatchActor.Event) :
    Step actor event (actor.step event) := by
  by_cases hgone : actor.isGone = true
  · rw [step.eq_def, if_pos hgone]
    exact .idle
  · have hended : actor.phase ≠ .ended := by
      intro hended
      simp [isGone, hended] at hgone
    rw [step.eq_def, if_neg hgone]
    cases event with
    | send command =>
        simp only
        split_ifs with hclosed
        · exact .idle
        · exact .send command hended (by simpa using hclosed)
    | close => exact .close hended
    | complete index response =>
        obtain hsame | ⟨messages, htask, hcomplete⟩ :=
          BatchActor.complete_cases actor.toBatchActor index response
        · simp only [hsame]
          exact .idle
        · simp only [hcomplete]
          exact .complete index messages response htask hended
    | join index => exact join_step hcalm index
    | timer =>
        simp only
        split_ifs with htimer
        · simp only [Bool.and_eq_true, decide_eq_true_eq] at htimer
          exact .flushTimer htimer.1
        · exact .idle
    | recv =>
        by_cases hphase : actor.phase = .selecting
        · simp only [hphase, if_true]
          rw [← hphase]
          split
          · rename_i command shared hrecv
            exact receive_step hphase hrecv
          · exact .idle
        · simp only [hphase, if_false]
          exact .idle

/-! ## The invariant -/

theorem concurrentInv_new (topic : String) (batchingOptions : BatchingOptions) :
    ConcurrentInv (new topic batchingOptions) where
  timer := by simp [new, Batch.new]
  joining := by simp [new]
  close := by simp [new]
  ended := by simp [new]
  alive := by simp [new]

theorem ConcurrentInv.of_step (hinv : ConcurrentInv actor) (h : Step actor event next) :
    ConcurrentInv next := by
  cases h with
  | idle => exact hinv
  | send command hphase hclosed =>
      exact { hinv with
        close := by
          intro hclose
          rw [(hinv.close hclose).1] at hclosed
          cases hclosed
        ended := fun h => absurd h hphase }
  | close hphase =>
      exact { hinv with
        close := fun hclose => ⟨rfl, (hinv.close hclose).2⟩
        ended := fun h => absurd h hphase }
  | complete index messages response htask hphase =>
      exact { hinv with ended := fun h => absurd h hphase }
  | joined index messages outcome htask hphase =>
      exact { hinv with ended := fun h => absurd h hphase }
  | flushTimer hphase =>
      have hselecting := (flush_kept actor).phase.trans hphase
      exact {
        timer := fun _ h => absurd actor.toBatchActor.flush_messages h
        joining := by simp [hselecting]
        close := by simp [hselecting]
        ended := by simp [hselecting]
        alive := by simp [hselecting] }
  | startJoin tx rx hphase hrx =>
      have hkept := flush_kept { actor with rx := rx }
      exact {
        timer := by simp
        joining := fun _ _ => BatchActor.flush_messages _
        close := by
          intro hclose
          simp only [ConcurrentPhase.joining.injEq] at hclose
          obtain ⟨id, htx, -⟩ | ⟨-, hnil, -, hclosed⟩ := hrx
          · rw [hclose] at htx
            cases htx
          · exact ⟨hkept.closed.trans hclosed, hkept.rx.trans hnil⟩
        ended := by simp
        alive := by simp }
  | resume rx hphase hrx =>
      exact { hinv with
        close := by simp [hphase]
        ended := by simp [hphase] }
  | accept msg rx moved timer hphase hrx hadded htimer =>
      have hselecting := hadded.kept.phase.trans hphase
      exact {
        timer := fun _ => htimer
        joining := by simp [hselecting]
        close := by simp [hselecting]
        ended := by simp [hselecting]
        alive := by simp [hselecting] }
  | finish tx hphase hinflight =>
      have hbatch := hinv.joining tx hphase
      cases tx with
      | some tx =>
          exact {
            timer := fun _ h => absurd hbatch h
            joining := by simp [afterJoinAll]
            close := by simp [afterJoinAll]
            ended := by simp [afterJoinAll]
            alive := by simp [afterJoinAll] }
      | none =>
          obtain ⟨hclosed, hrx⟩ := hinv.close hphase
          exact {
            timer := by simp [afterJoinAll]
            joining := by simp [afterJoinAll]
            close := by simp [afterJoinAll]
            ended := fun _ => ⟨hclosed, hrx, hbatch, hinflight⟩
            alive := by simp [afterJoinAll] }

theorem Step.calm (h : Step actor event next) (hcalm : Calm actor.toBatchActor)
    (hevent : event.Calm) : Calm next.toBatchActor := by
  cases h with
  | complete index messages response htask hphase =>
      have hresponse : response ≠ .panic := by
        rintro rfl
        exact hevent
      obtain ⟨hanswers, houtcome⟩ := calm_batchResolvePublishFutures messages hresponse
      constructor
      · intro answer hanswer
        exact (List.mem_append.mp hanswer).elim (hcalm.answers answer) (hanswers answer)
      · intro task htask
        obtain hold | rfl := List.mem_or_eq_of_mem_set htask
        · exact hcalm.inflight task hold
        · simpa using houtcome
  | joined index messages outcome htask hphase =>
      exact ⟨hcalm.answers, fun task htask => hcalm.inflight task (List.mem_of_mem_eraseIdx htask)⟩
  | flushTimer hphase =>
      exact ⟨(BatchActor.calm_flush hcalm).answers, (BatchActor.calm_flush hcalm).inflight⟩
  | startJoin tx rx hphase hrx =>
      exact BatchActor.calm_flush ⟨hcalm.answers, hcalm.inflight⟩
  | accept msg rx moved timer hphase hrx hadded htimer =>
      have hmoved := hadded.calm ⟨hcalm.answers, hcalm.inflight⟩
      exact ⟨hmoved.answers, hmoved.inflight⟩
  | finish tx hphase hinflight =>
      cases tx with
      | some tx => exact ⟨hcalm.answers, by simp [afterJoinAll]⟩
      | none => exact hcalm
  | _ => exact ⟨hcalm.answers, hcalm.inflight⟩

theorem inbox_eq {command : ToBatchActor} {rx : List ToBatchActor} (h : actor.rx = command :: rx) :
    actor.worker.inbox = command.command :: rx.map ToBatchActor.command := by
  rw [worker, h]
  rfl

/-- What happens inside of a concurrent actor is what happens inside of a worker. -/
theorem Step.worker_steps (h : Step actor event next) (hinv : ConcurrentInv actor)
    (hevent : event.IsInternal) : Steps actor.worker next.worker := by
  cases h with
  | idle => exact .refl
  | send command hphase hclosed => exact hevent.elim
  | close hphase => exact hevent.elim
  | complete index messages response htask hphase =>
      have hmessages := messages_batchResolvePublishFutures messages response
      refine .single (.consume ↑messages rfl ?_ ?_ rfl rfl)
      · rw [worker, worker, BatchActor.held, BatchActor.held, BatchActor.running,
          BatchActor.running, BatchActor.running_set _ htask]
        exact (add_assoc _ _ _).symm
      · rw [worker, worker, List.map_append, hmessages, Multiset.coe_add]
  | joined index messages outcome htask hphase =>
      refine .of_eq (Worker.ext rfl ?_ rfl rfl rfl)
      rw [worker, worker, BatchActor.held, BatchActor.held, BatchActor.running,
        BatchActor.running, BatchActor.running_eraseIdx htask]
  | flushTimer hphase =>
      have hkept := flush_kept actor
      refine .of_eq (Worker.ext ?_ actor.toBatchActor.held_flush.symm ?_ ?_ hkept.flushed.symm)
      · exact congrArg (List.map ToBatchActor.command) hkept.rx.symm
      · exact congrArg (fun answers => (↑(List.map Answer.message answers) : Multiset BundledMessage))
          hkept.answers.symm
      · exact congrArg ConcurrentPhase.current hkept.phase.symm
  | startJoin tx rx hphase hrx =>
      have hkept := flush_kept { actor with rx := rx }
      have hinbox : (worker { flush { actor with rx := rx } with phase := .joining tx }).inbox =
          rx.map ToBatchActor.command := congrArg (List.map ToBatchActor.command) hkept.rx
      have hheld := BatchActor.held_flush { actor.toBatchActor with rx := rx }
      have hconsumed : (worker { flush { actor with rx := rx } with phase := .joining tx }).consumed =
          actor.worker.consumed :=
        congrArg (fun answers => (↑(List.map Answer.message answers) : Multiset BundledMessage)) hkept.answers
      have hcurrent : actor.worker.current = none := by
        rw [worker, hphase]
        rfl
      obtain ⟨id, rfl, hrx⟩ | ⟨rfl, rfl, hrx, hclosed⟩ := hrx
      · refine .single (.start id ?_ hheld hconsumed hcurrent rfl hkept.flushed)
        rw [inbox_eq hrx, hinbox]
        rfl
      · refine .of_eq (Worker.ext ?_ hheld.symm hconsumed.symm hcurrent hkept.flushed.symm)
        rw [hinbox, worker, hrx]
  | resume rx hphase hrx => exact .single (.skip (inbox_eq hrx) rfl rfl rfl rfl)
  | accept msg rx moved timer hphase hrx hadded htimer =>
      have hkept := hadded.kept
      refine .single (.take msg ?_ hadded.held ?_ ?_ hkept.flushed)
      · rw [inbox_eq hrx]
        exact congrArg (fun rx => _ :: List.map ToBatchActor.command rx) hkept.rx.symm
      · exact congrArg (fun answers => (↑(List.map Answer.message answers) : Multiset BundledMessage))
          hkept.answers
      · exact congrArg ConcurrentPhase.current hkept.phase
  | finish tx hphase hinflight =>
      have hheld : actor.worker.held = 0 := by
        rw [worker, BatchActor.held, BatchActor.running, hinv.joining tx hphase, hinflight]
        rfl
      have hcurrent : actor.worker.current = ConcurrentPhase.current (.joining tx) := by
        rw [worker, hphase]
      cases tx with
      | some tx =>
          have hafter : (actor.afterJoinAll (some tx)).worker.held = 0 := by
            rw [worker, BatchActor.held, BatchActor.running]
            simp only [afterJoinAll]
            rw [hinv.joining (some tx) hphase]
            rfl
          exact .single (.acknowledge tx rfl hheld hafter rfl hcurrent rfl rfl)
      | none => exact .of_eq (Worker.ext rfl rfl rfl hcurrent rfl)

/-! ## The channel -/

theorem step_of_gone (h : actor.isGone = true) : actor.step event = actor := by
  rw [step.eq_def, if_pos h]

theorem step_send (hgone : actor.isGone = false) (hclosed : actor.closed = false)
    (command : ToBatchActor) :
    actor.step (.send command) = { actor with rx := actor.rx ++ [command] } := by
  simp [step.eq_def, hgone, hclosed]

theorem step_close (hgone : actor.isGone = false) :
    actor.step .close = { actor with closed := true } := by
  simp [step.eq_def, hgone]

/-- Only the dispatcher closes the channel. -/
theorem Step.closed_eq (h : Step actor event next) (hevent : event.IsInternal) :
    next.closed = actor.closed := by
  cases h with
  | close hphase => exact hevent.elim
  | flushTimer hphase => exact (flush_kept actor).closed
  | startJoin tx rx hphase hrx => exact (flush_kept { actor with rx := rx }).closed
  | accept msg rx moved timer hphase hrx hadded htimer => exact hadded.kept.closed
  | finish tx hphase hinflight =>
      cases tx with
      | some tx => rfl
      | none => rfl
  | _ => rfl

end ConcurrentBatchActor

end GoogleCloudRust.Publisher
