import GoogleCloudRust.Library.Interleaving
import GoogleCloudRust.Model.BatchActor

/-! # Steps of the sequential batch actor

While a batch is in flight nothing is moved to the next one, so the open batch is empty
whenever a batch fails and `pause` finds everything that is not sent in the queue. -/

namespace GoogleCloudRust.Publisher

variable {messages : List BundledMessage}

/-! ## What the actors share -/

namespace BatchActor

variable {actor next : BatchActor} {index : ℕ} {outcome : Outcome}

theorem flush_of_empty (h : actor.batch.messages = []) : actor.flush = actor := by
  rw [flush, Batch.isEmpty, h]
  rfl

theorem flush_of_ne (h : actor.batch.messages ≠ []) :
    actor.flush =
      { actor with
        batch := actor.batch.drainMessages.2
        inflight := actor.inflight ++ [{ messages := actor.batch.messages }]
        batches := actor.batches ++ [actor.batch.messages] } := by
  have hempty : actor.batch.isEmpty = false := by simpa [Batch.isEmpty] using h
  rw [flush, hempty]
  rfl

theorem flush_messages (actor : BatchActor) : actor.flush.batch.messages = [] := by
  by_cases h : actor.batch.messages = []
  · rw [flush_of_empty h, h]
  · rw [flush_of_ne h]
    rfl

theorem joinNext_eq_some (h : actor.joinNext index = some (outcome, next)) :
    ∃ messages, actor.inflight[index]? = some ⟨messages, some outcome⟩ ∧
      next = { actor with inflight := actor.inflight.eraseIdx index } := by
  unfold joinNext at h
  split at h
  · rename_i messages found htask
    obtain ⟨rfl, rfl⟩ := Prod.mk.inj (Option.some.inj h)
    exact ⟨messages, htask, rfl⟩
  · cases h

/-- A task ends, or nothing happens. -/
theorem complete_cases (actor : BatchActor) (index : ℕ) (response : Response) :
    actor.complete index response = actor ∨
      ∃ messages, actor.inflight[index]? = some ⟨messages, none⟩ ∧
        actor.complete index response =
          { actor with
            inflight := actor.inflight.set index
              ⟨messages, some (batchResolvePublishFutures messages response).2⟩
            answers := actor.answers ++ (batchResolvePublishFutures messages response).1 } := by
  unfold complete
  split
  · rename_i messages htask
    exact .inr ⟨messages, htask, rfl⟩
  · exact .inl rfl

theorem recv_eq_some {command : Option ToBatchActor} (h : actor.recv = some (command, next)) :
    (∃ sent, command = some sent ∧ actor.rx = sent :: next.rx ∧
      next = { actor with rx := next.rx }) ∨
      (command = none ∧ actor.rx = [] ∧ actor.closed = true ∧ next = actor) := by
  unfold recv at h
  split at h
  · rename_i sent rx hrx
    obtain ⟨rfl, rfl⟩ := Prod.mk.inj (Option.some.inj h)
    exact .inl ⟨sent, rfl, hrx, rfl⟩
  · rename_i hrx
    split_ifs at h with hclosed
    obtain ⟨rfl, rfl⟩ := Prod.mk.inj (Option.some.inj h)
    exact .inr ⟨rfl, hrx, hclosed, rfl⟩

/-- A set with at most one task. -/
theorem inflight_eq_singleton {task : Task} {inflight : List Task} (hlength : inflight.length ≤ 1)
    (h : inflight[index]? = some task) : index = 0 ∧ inflight = [task] := by
  obtain ⟨hlt, htask⟩ := List.getElem?_eq_some_iff.mp h
  obtain rfl : index = 0 := by omega
  obtain ⟨only, rfl⟩ := List.length_eq_one_iff.mp (Nat.le_antisymm hlength hlt)
  exact ⟨rfl, by rw [← htask]; rfl⟩

end BatchActor

namespace SequentialBatchActor

variable {actor next moved : SequentialBatchActor} {event : BatchActor.Event}

/-! ## Moving messages along -/

theorem moveToBatch_cons (batch : Batch) (next : BundledMessage)
    (pendingMsgs : List BundledMessage) :
    moveToBatch batch (next :: pendingMsgs) =
      if !batch.canAdd next && !batch.isEmpty then (batch, next :: pendingMsgs, true)
      else if (batch.push next).atThreshold then (batch.push next, pendingMsgs, true)
      else moveToBatch (batch.push next) pendingMsgs :=
  rfl

theorem moveToBatch_messages (batch : Batch) (pendingMsgs : List BundledMessage) :
    (moveToBatch batch pendingMsgs).1.messages ++ (moveToBatch batch pendingMsgs).2.1 =
      batch.messages ++ pendingMsgs := by
  induction pendingMsgs generalizing batch with
  | nil => rfl
  | cons next pendingMsgs ih =>
      rw [moveToBatch_cons]
      split_ifs with hadd hthreshold
      · rfl
      · simp [Batch.push]
      · rw [ih]
        simp [Batch.push]

/-- Whoever does not flush has moved everything. -/
theorem moveToBatch_pending (batch : Batch) (pendingMsgs : List BundledMessage)
    (h : (moveToBatch batch pendingMsgs).2.2 = false) :
    (moveToBatch batch pendingMsgs).2.1 = [] := by
  induction pendingMsgs generalizing batch with
  | nil => rfl
  | cons next pendingMsgs ih =>
      rw [moveToBatch_cons] at h ⊢
      split_ifs at h ⊢ with hadd hthreshold
      exact ih _ h

/-- There is something to flush. -/
theorem moveToBatch_flush (batch : Batch) (pendingMsgs : List BundledMessage)
    (h : (moveToBatch batch pendingMsgs).2.2 = true) :
    (moveToBatch batch pendingMsgs).1.messages ≠ [] := by
  induction pendingMsgs generalizing batch with
  | nil => cases h
  | cons next pendingMsgs ih =>
      rw [moveToBatch_cons] at h ⊢
      split_ifs at h ⊢ with hadd hthreshold
      · simp only [Batch.isEmpty, Bool.and_eq_true, Bool.not_eq_true', List.isEmpty_eq_false_iff]
          at hadd
        exact hadd.2
      · simp [Batch.push]
      · exact ih _ h

/-- With nothing in flight, the queue is gathered in the open batch or a batch is sent. -/
inductive Moves (actor : SequentialBatchActor) : SequentialBatchActor → Prop
  | gather (batch : Batch) (hbatch : batch.messages = actor.batch.messages ++ actor.pendingMsgs) :
      Moves actor { actor with batch := batch, pendingMsgs := [] }
  | send (batch : Batch) (messages pendingMsgs : List BundledMessage) (hne : messages ≠ [])
      (hline : messages ++ pendingMsgs = actor.batch.messages ++ actor.pendingMsgs)
      (hbatch : batch.messages = []) :
      Moves actor { actor with
        batch := batch
        pendingMsgs := pendingMsgs
        inflight := [{ messages := messages }]
        batches := actor.batches ++ [messages] }

theorem moveToBatchAndFlush_moves (h : actor.inflight = []) :
    Moves actor actor.moveToBatchAndFlush := by
  have hmessages := moveToBatch_messages actor.batch actor.pendingMsgs
  unfold moveToBatchAndFlush
  generalize hmove : moveToBatch actor.batch actor.pendingMsgs = move at hmessages
  obtain ⟨batch, pendingMsgs, shouldFlush⟩ := move
  simp only [h, List.isEmpty_nil, Bool.and_true] at hmessages ⊢
  cases shouldFlush with
  | false =>
      have hpending := moveToBatch_pending actor.batch actor.pendingMsgs (by rw [hmove])
      simp only [hmove] at hpending
      rw [if_neg Bool.false_ne_true, hpending, ← h]
      refine .gather batch ?_
      rw [← hmessages, hpending, List.append_nil]
  | true =>
      have hne := moveToBatch_flush actor.batch actor.pendingMsgs (by rw [hmove])
      simp only [hmove] at hne
      rw [if_pos rfl, flush, BatchActor.flush_of_ne hne]
      exact .send _ batch.messages pendingMsgs hne hmessages rfl

theorem Moves.phase_eq (h : Moves actor moved) : moved.phase = actor.phase := by
  cases h with
  | gather batch hbatch => rfl
  | send batch messages pendingMsgs hne hline hbatch => rfl

theorem moveToBatchAndFlush_of_nil (h : actor.inflight = []) (hpending : actor.pendingMsgs = []) :
    actor.moveToBatchAndFlush = actor := by
  have hassert : (actor.debugAssert && actor.inflight.isEmpty) = actor.debugAssert := by
    rw [h, List.isEmpty_nil, Bool.and_true]
  rw [moveToBatchAndFlush, hpending]
  simp only [moveToBatch, Bool.false_eq_true, if_false, hassert]
  rw [← hpending]

theorem flush_of_empty (h : actor.batch.messages = []) : actor.flush = actor := by
  rw [flush, BatchActor.flush_of_empty h]

theorem flush_moves (h : actor.inflight = []) (hpending : actor.pendingMsgs = []) :
    Moves actor actor.flush := by
  by_cases hbatch : actor.batch.messages = []
  · have hsame : actor.flush = { actor with batch := actor.batch, pendingMsgs := [] } := by
      rw [flush_of_empty hbatch, ← hpending]
    rw [hsame]
    exact .gather actor.batch (by rw [hpending, List.append_nil])
  · have hsent : actor.flush = { actor with
        batch := actor.batch.drainMessages.2
        pendingMsgs := []
        inflight := [{ messages := actor.batch.messages }]
        batches := actor.batches ++ [actor.batch.messages] } := by
      rw [flush, BatchActor.flush_of_ne hbatch, h, ← hpending]
      rfl
    rw [hsent]
    exact .send _ actor.batch.messages [] hbatch (by rw [hpending]) rfl

/-! ## What a step can do -/

structure SequentialInv (actor : SequentialBatchActor) : Prop where
  inflight : actor.inflight.length ≤ 1
  batch : actor.inflight ≠ [] → actor.batch.messages = []
  paused : actor.paused = true →
    actor.pendingMsgs = [] ∧ actor.batch.messages = [] ∧ actor.inflight = []
  timer : actor.phase = .selecting → actor.pendingMsgs ≠ [] ∨ actor.batch.messages ≠ [] →
    actor.timer = true
  last : ∀ cause, actor.phase = .flushing .last cause →
    actor.pendingMsgs = [] ∧ actor.batch.messages = []
  close : ∀ stage, actor.phase = .flushing stage .close → actor.closed = true ∧ actor.rx = []
  ended : actor.phase = .ended → actor.closed = true ∧ actor.rx = [] ∧
    actor.pendingMsgs = [] ∧ actor.batch.messages = [] ∧ actor.inflight = []
  debugAssert : actor.debugAssert = true

/-- Nothing is in flight once `join_next` has returned, and it has not failed. -/
def Joined (actor : SequentialBatchActor) : Prop :=
  actor.inflight = [] ∨ ∃ messages, actor.inflight = [⟨messages, some .ok⟩]

/-- The batch in flight has failed, and the actor may not know yet. -/
def Failing (actor : SequentialBatchActor) : Prop :=
  ∃ messages outcome, actor.inflight = [⟨messages, some outcome⟩] ∧ outcome ≠ .ok

/-- Where `flush_all` goes on after a join. -/
inductive Continues : SequentialPhase → SequentialPhase → Prop
  | select : Continues .selecting .selecting
  | loop (stage : FlushStage) (cause : FlushCause) :
      Continues (.flushing stage cause) (.flushing .loop cause)
  | last (stage : FlushStage) (cause : FlushCause) (h : stage ≠ .last) :
      Continues (.flushing stage cause) (.flushing .last cause)

inductive Step (actor : SequentialBatchActor) :
    BatchActor.Event → SequentialBatchActor → Prop
  | idle {event : _} : Step actor event actor
  | send (command : ToBatchActor) (hphase : actor.phase ≠ .ended)
      (hclosed : actor.closed = false) :
      Step actor (.send command) { actor with rx := actor.rx ++ [command] }
  | close (hphase : actor.phase ≠ .ended) : Step actor .close { actor with closed := true }
  | complete {index : ℕ} (messages : List BundledMessage) (response : Response)
      (hinflight : actor.inflight = [⟨messages, none⟩]) :
      Step actor (.complete index response) { actor with
        inflight := [⟨messages, some (batchResolvePublishFutures messages response).2⟩]
        answers := actor.answers ++ (batchResolvePublishFutures messages response).1 }
  | beginFlush {event : _} (cause : FlushCause) (rx : List ToBatchActor)
      (hphase : actor.phase = .selecting) (hpaused : actor.paused = false)
      (hrx : (cause = .timer ∧ rx = actor.rx) ∨
        (∃ tx, cause = .flush tx ∧ actor.rx = .flush tx :: rx) ∨
        (cause = .close ∧ rx = [] ∧ actor.rx = [] ∧ actor.closed = true)) :
      Step actor event { actor with rx := rx, phase := .flushing .first cause }
  | refuse {event : _} (msg : BundledMessage) (rx : List ToBatchActor)
      (hphase : actor.phase = .selecting) (hpaused : actor.paused = true)
      (hrx : actor.rx = .publish msg :: rx) :
      Step actor event { actor with
        rx := rx
        received := actor.received ++ [msg]
        answers := actor.answers ++ [⟨msg, .orderingKeyPaused⟩] }
  | signal {event : _} (tx : ℕ) (rx : List ToBatchActor)
      (hphase : actor.phase = .selecting) (hpaused : actor.paused = true)
      (hrx : actor.rx = .flush tx :: rx) :
      Step actor event { actor with rx := rx, flushed := actor.flushed ++ [tx] }
  | resume {event : _} (rx : List ToBatchActor) (hphase : actor.phase = .selecting)
      (hrx : actor.rx = .resumePublish :: rx) :
      Step actor event { actor with rx := rx, paused := false, resumes := actor.resumes + 1 }
  | stop {event : _} (hphase : actor.phase = .selecting) (hpaused : actor.paused = true)
      (hrx : actor.rx = []) (hclosed : actor.closed = true) :
      Step actor event { actor with phase := .ended }
  | queue {event : _} (msg : BundledMessage) (rx : List ToBatchActor)
      (hphase : actor.phase = .selecting) (hpaused : actor.paused = false)
      (hrx : actor.rx = .publish msg :: rx) (hinflight : actor.inflight ≠ []) :
      Step actor event { actor with
        rx := rx
        received := actor.received ++ [msg]
        pendingMsgs := actor.pendingMsgs ++ [msg]
        timer := true }
  | accept {event : _} (msg : BundledMessage) (rx : List ToBatchActor)
      (moved : SequentialBatchActor) (timer : Bool) (hphase : actor.phase = .selecting)
      (hpaused : actor.paused = false) (hrx : actor.rx = .publish msg :: rx)
      (hinflight : actor.inflight = [])
      (hmoves : Moves { actor with
        rx := rx
        received := actor.received ++ [msg]
        pendingMsgs := actor.pendingMsgs ++ [msg] } moved)
      (htimer : moved.pendingMsgs ≠ [] ∨ moved.batch.messages ≠ [] → timer = true) :
      Step actor event { moved with timer := timer }
  | arrange {event : _} (moved : SequentialBatchActor) (phase : SequentialPhase)
      (hjoined : Joined actor) (hmoves : Moves { actor with inflight := [] } moved)
      (hphase : Continues actor.phase phase)
      (hlast : ∀ cause, phase = .flushing .last cause →
        moved.pendingMsgs = [] ∧ moved.batch.messages = []) :
      Step actor event { moved with phase := phase }
  | fail {event : _} (phase : SequentialPhase) (hfailing : Failing actor)
      (hphase : Continues actor.phase phase) :
      Step actor event { actor with
        inflight := []
        paused := true
        pendingMsgs := []
        answers := actor.answers ++
          actor.pendingMsgs.map fun publish => ⟨publish, .orderingKeyPaused⟩
        phase := phase }
  | finish {event : _} (cause : FlushCause) (paused : Bool)
      (hphase : actor.phase = .flushing .last cause)
      (hpaused : (Joined actor ∧ paused = actor.paused) ∨ (Failing actor ∧ paused = true)) :
      Step actor event ({ actor with inflight := [], paused := paused }.afterFlushAll cause)

theorem Joined.of_outcome {outcome : Outcome} (h : actor.inflight = [⟨messages, some outcome⟩]) :
    (Joined actor ∧ outcome = .ok) ∨ (Failing actor ∧ outcome ≠ .ok) := by
  by_cases hok : outcome = .ok
  · subst hok
    exact .inl ⟨.inr ⟨messages, h⟩, rfl⟩
  · exact .inr ⟨⟨messages, outcome, h, hok⟩, hok⟩

theorem handleInflightJoin_of_ne {outcome : Outcome} (h : outcome ≠ .ok) :
    actor.handleInflightJoin (some outcome) = actor.pause := by
  cases outcome with
  | ok => exact absurd rfl h
  | err => rfl
  | panicked => rfl

/-- `flush_all` goes on after a join that has not failed. -/
theorem continueFlushAll_step {stage : FlushStage} {cause : FlushCause}
    (hphase : actor.phase = .flushing stage cause) (hjoined : Joined actor) :
    Step actor event ({ actor with inflight := [] }.continueFlushAll stage cause) := by
  by_cases hstage : stage = .last
  · subst hstage
    exact .finish cause actor.paused hphase (.inl ⟨hjoined, rfl⟩)
  · have hcontinue : ({ actor with inflight := [] }.continueFlushAll stage cause) =
        if actor.pendingMsgs.isEmpty then
          { { actor with inflight := [] }.flush with phase := .flushing .last cause }
        else
          { { actor with inflight := [] }.moveToBatchAndFlush with
            phase := .flushing .loop cause } := by
      cases stage with
      | first => rfl
      | loop => rfl
      | last => exact absurd rfl hstage
    rw [hcontinue]
    split_ifs with hpending
    · rw [List.isEmpty_iff] at hpending
      have hmoves := @flush_moves { actor with inflight := [] } rfl hpending
      refine .arrange _ _ hjoined hmoves (hphase ▸ .last stage cause hstage) ?_
      intro _ _
      exact ⟨hpending, BatchActor.flush_messages _⟩
    · have hmoves := @moveToBatchAndFlush_moves { actor with inflight := [] } rfl
      exact .arrange _ _ hjoined hmoves (hphase ▸ .loop stage cause) (by simp)

/-- `flush_all` goes on after a batch has failed. -/
theorem continueFlushAll_pause {stage : FlushStage} {cause : FlushCause}
    (hphase : actor.phase = .flushing stage cause) (hinv : SequentialInv actor)
    (hfailing : Failing actor) :
    Step actor event ({ actor with inflight := [] }.pause.continueFlushAll stage cause) := by
  have hbatch : actor.batch.messages = [] := by
    obtain ⟨messages, outcome, hinflight, -⟩ := hfailing
    exact hinv.batch (by simp [hinflight])
  by_cases hstage : stage = .last
  · subst hstage
    have hpending := (hinv.last cause hphase).1
    have hpause : { actor with inflight := [] }.pause =
        { actor with inflight := [], paused := true } := by
      simp only [pause, hpending, List.map_nil, List.append_nil]
    rw [hpause]
    exact .finish cause true hphase (.inr ⟨hfailing, rfl⟩)
  · have hcontinue : ({ actor with inflight := [] }.pause.continueFlushAll stage cause) =
        { { actor with inflight := [] }.pause.flush with phase := .flushing .last cause } := by
      cases stage with
      | first => rfl
      | loop => rfl
      | last => exact absurd rfl hstage
    have hflush : (pause { actor with inflight := [] }).flush =
        pause { actor with inflight := [] } := flush_of_empty hbatch
    rw [hcontinue, hflush]
    exact .fail _ hfailing (hphase ▸ .last stage cause hstage)

theorem join_step (hinv : SequentialInv actor) (index : ℕ) :
    Step actor event (actor.join index) := by
  unfold join
  split
  · rename_i hphase
    split_ifs with hpaused
    · exact .idle
    · split
      · rename_i outcome next hjoin
        obtain ⟨messages, htask, rfl⟩ := BatchActor.joinNext_eq_some hjoin
        obtain ⟨rfl, hinflight⟩ := BatchActor.inflight_eq_singleton hinv.inflight htask
        simp only [hinflight, List.eraseIdx_cons_zero]
        obtain ⟨hjoined, rfl⟩ | ⟨hfailing, hne⟩ := Joined.of_outcome hinflight
        · have hmoves := @moveToBatchAndFlush_moves { actor with inflight := [] } rfl
          have hmoved := hmoves.phase_eq.trans hphase
          refine .arrange _ (moveToBatchAndFlush { actor with inflight := [] }).phase hjoined
            hmoves ?_ ?_
          · rw [hmoved, hphase]
            exact .select
          · simp [hmoved]
        · rw [handleInflightJoin_of_ne hne, moveToBatchAndFlush_of_nil rfl rfl]
          refine .fail actor.phase hfailing ?_
          rw [hphase]
          exact .select
      · exact .idle
  · rename_i stage cause hphase
    split_ifs with hempty
    · rw [List.isEmpty_iff] at hempty
      have hstep := @continueFlushAll_step actor event stage cause hphase (.inl hempty)
      rw [← hempty] at hstep
      exact hstep
    · split
      · rename_i outcome next hjoin
        obtain ⟨messages, htask, rfl⟩ := BatchActor.joinNext_eq_some hjoin
        obtain ⟨rfl, hinflight⟩ := BatchActor.inflight_eq_singleton hinv.inflight htask
        simp only [hinflight, List.eraseIdx_cons_zero]
        obtain ⟨hjoined, rfl⟩ | ⟨hfailing, hne⟩ := Joined.of_outcome hinflight
        · exact continueFlushAll_step hphase hjoined
        · rw [handleInflightJoin_of_ne hne]
          exact continueFlushAll_pause hphase hinv hfailing
      · exact .idle
  · exact .idle

theorem receivePaused_step (hphase : actor.phase = .selecting) (hpaused : actor.paused = true)
    {command : Option ToBatchActor} {shared : BatchActor}
    (hrecv : actor.toBatchActor.recv = some (command, shared)) :
    Step actor event ({ actor with toBatchActor := shared }.receivePaused command) := by
  obtain ⟨sent, rfl, hrx, hshared⟩ | ⟨rfl, hrx, hclosed, rfl⟩ := BatchActor.recv_eq_some hrecv
  · rw [hshared]
    cases sent with
    | publish msg => exact .refuse msg shared.rx hphase hpaused hrx
    | flush tx => exact .signal tx shared.rx hphase hpaused hrx
    | resumePublish => exact .resume shared.rx hphase hrx
  · exact .stop hphase hpaused hrx hclosed

theorem receive_step (hphase : actor.phase = .selecting) (hpaused : actor.paused = false)
    {command : Option ToBatchActor} {shared : BatchActor}
    (hrecv : actor.toBatchActor.recv = some (command, shared)) :
    Step actor event ({ actor with toBatchActor := shared }.receive command) := by
  obtain ⟨sent, rfl, hrx, hshared⟩ | ⟨rfl, hrx, hclosed, rfl⟩ := BatchActor.recv_eq_some hrecv
  · rw [hshared]
    cases sent with
    | publish msg =>
        by_cases hinflight : actor.inflight = []
        · have hmoves := @moveToBatchAndFlush_moves { actor with
            rx := shared.rx
            received := actor.received ++ [msg]
            pendingMsgs := actor.pendingMsgs ++ [msg] } hinflight
          simp only [receive, hinflight, List.isEmpty_nil, if_true]
          rw [← hinflight]
          split_ifs with hempty
          · refine .accept msg shared.rx _ false hphase hpaused hrx hinflight hmoves ?_
            simp only [Bool.and_eq_true, List.isEmpty_iff, Batch.isEmpty] at hempty
            simp [hempty]
          · exact .accept msg shared.rx _ true hphase hpaused hrx hinflight hmoves fun _ => rfl
        · have hsome : actor.inflight.isEmpty = false := by simpa using hinflight
          have hpending : (actor.pendingMsgs ++ [msg]).isEmpty = false := by simp
          simp only [receive, hsome, hpending, Bool.false_and, Bool.false_eq_true, if_false]
          exact .queue msg shared.rx hphase hpaused hrx hinflight
    | flush tx =>
        exact .beginFlush (.flush tx) shared.rx hphase hpaused (.inr (.inl ⟨tx, rfl, hrx⟩))
    | resumePublish =>
        have hstep := @Step.resume actor event shared.rx hphase hrx
        rw [← hpaused] at hstep
        exact hstep
  · have hstep := @Step.beginFlush actor event .close actor.rx hphase hpaused
      (.inr (.inr ⟨rfl, hrx, hrx, hclosed⟩))
    exact hstep

/-- Everything that an actor can do. -/
theorem step_cases (hinv : SequentialInv actor) (event : BatchActor.Event) :
    Step actor event (actor.step event) := by
  by_cases hended : actor.phase = .ended
  · rw [step.eq_def, if_pos hended]
    exact .idle
  · rw [step.eq_def, if_neg hended]
    cases event with
    | send command =>
        simp only
        split_ifs with hclosed
        · exact .idle
        · exact .send command hended (by simpa using hclosed)
    | close => exact .close hended
    | complete index response =>
        obtain hsame | ⟨messages, htask, hcomplete⟩ :=
          BatchActor.complete_cases actor.toBatchActor index response
        · simp only [hsame]
          exact .idle
        · obtain ⟨rfl, hinflight⟩ := BatchActor.inflight_eq_singleton hinv.inflight htask
          simp only [hcomplete, hinflight, List.set_cons_zero]
          exact .complete messages response hinflight
    | join index => exact join_step hinv index
    | timer =>
        simp only
        split_ifs with htimer
        · simp only [Bool.and_eq_true, decide_eq_true_eq, Bool.not_eq_true'] at htimer
          exact .beginFlush .timer actor.rx htimer.1.1 htimer.1.2 (.inl ⟨rfl, rfl⟩)
        · exact .idle
    | recv =>
        by_cases hphase : actor.phase = .selecting
        · simp only [hphase, if_true]
          rw [← hphase]
          split
          · rename_i command shared hrecv
            split_ifs with hpaused
            · exact receivePaused_step hphase hpaused hrecv
            · exact receive_step hphase (by simpa using hpaused) hrecv
          · exact .idle
        · simp only [hphase, if_false]
          exact .idle

/-! ## The invariant -/

theorem sequentialInv_new (topic : String) (batchingOptions : BatchingOptions) :
    SequentialInv (new topic batchingOptions) where
  inflight := Nat.zero_le 1
  batch := fun _ => rfl
  paused := by simp [new]
  timer := by simp [new, Batch.new]
  last := by simp [new]
  close := by simp [new]
  ended := by simp [new]
  debugAssert := rfl

theorem Failing.inflight_ne (h : Failing actor) : actor.inflight ≠ [] := by
  obtain ⟨messages, outcome, hinflight, -⟩ := h
  simp [hinflight]

theorem Failing.not_paused (h : Failing actor) (hinv : SequentialInv actor) :
    actor.paused = false := by
  by_contra hpaused
  exact h.inflight_ne (hinv.paused (by simpa using hpaused)).2.2

/-- What holds once messages have been moved. -/
theorem Moves.inv (h : Moves actor moved) (hinflight : actor.inflight = []) :
    moved.inflight.length ≤ 1 ∧ (moved.inflight ≠ [] → moved.batch.messages = []) := by
  cases h with
  | gather batch hbatch => simp [hinflight]
  | send batch messages pendingMsgs hne hline hbatch => simp [hbatch]

/-- When everything is empty there is nothing to move. -/
theorem Moves.eq_of_nil (h : Moves actor moved) (hinflight : actor.inflight = [])
    (hpending : actor.pendingMsgs = []) (hbatch : actor.batch.messages = []) :
    moved.pendingMsgs = [] ∧ moved.batch.messages = [] ∧ moved.inflight = [] ∧
      moved.batches = actor.batches := by
  cases h with
  | gather batch hgathered =>
      rw [hpending, hbatch] at hgathered
      exact ⟨rfl, hgathered, hinflight, rfl⟩
  | send batch messages pendingMsgs hne hline hdrained =>
      rw [hpending, hbatch, List.append_nil, List.append_eq_nil_iff] at hline
      exact absurd hline.1 hne

/-- What stays as it is while messages are moved. -/
theorem Moves.frame (h : Moves actor moved) :
    moved.rx = actor.rx ∧ moved.closed = actor.closed ∧ moved.timer = actor.timer ∧
      moved.received = actor.received ∧ moved.answers = actor.answers ∧
      moved.flushed = actor.flushed ∧ moved.paused = actor.paused ∧
      moved.resumes = actor.resumes ∧ moved.debugAssert = actor.debugAssert := by
  cases h with
  | gather batch hbatch => simp
  | send batch messages pendingMsgs hne hline hbatch => simp

theorem Continues.ne_ended {phase later : SequentialPhase} (h : Continues phase later) :
    later ≠ .ended := by
  cases h with
  | select => simp
  | loop stage cause => simp
  | last stage cause hne => simp

theorem Continues.of_close {phase later : SequentialPhase} {stage : FlushStage}
    (h : Continues phase later) (hlater : later = .flushing stage .close) :
    ∃ earlier, phase = .flushing earlier .close := by
  cases h with
  | select => cases hlater
  | loop earlier cause =>
      cases hlater
      exact ⟨earlier, rfl⟩
  | last earlier cause hne =>
      cases hlater
      exact ⟨earlier, rfl⟩

theorem Continues.of_selecting {phase later : SequentialPhase} (h : Continues phase later)
    (hlater : later = .selecting) : phase = .selecting := by
  cases h with
  | select => rfl
  | loop earlier cause => cases hlater
  | last earlier cause hne => cases hlater

/-- A command has been taken from the channel and nothing was moved. -/
theorem SequentialInv.of_received (hinv : SequentialInv actor) (hphase : actor.phase = .selecting)
    (hshared : next.inflight = actor.inflight ∧ next.batch = actor.batch ∧
      next.timer = actor.timer)
    (hpending : next.pendingMsgs = actor.pendingMsgs)
    (hpaused : next.paused = true → actor.paused = true) (hnext : next.phase = .selecting)
    (hassert : next.debugAssert = actor.debugAssert) : SequentialInv next := by
  obtain ⟨hinflight, hbatch, htimer⟩ := hshared
  exact {
    inflight := hinflight ▸ hinv.inflight
    batch := by
      rw [hinflight, hbatch]
      exact hinv.batch
    paused := by
      intro h
      rw [hinflight, hbatch, hpending]
      exact hinv.paused (hpaused h)
    timer := by
      intro _
      rw [hbatch, htimer, hpending]
      exact hinv.timer hphase
    last := by simp [hnext]
    close := by simp [hnext]
    ended := by simp [hnext]
    debugAssert := hassert.trans hinv.debugAssert }

theorem SequentialInv.accept (hinv : SequentialInv actor) {before : SequentialBatchActor}
    (hmoves : Moves before moved) (hinflight : before.inflight = [])
    (hphase : before.phase = .selecting) (hpaused : before.paused = false)
    (hassert : before.debugAssert = actor.debugAssert) {timer : Bool}
    (htimer : moved.pendingMsgs ≠ [] ∨ moved.batch.messages ≠ [] → timer = true) :
    SequentialInv { moved with timer := timer } := by
  obtain ⟨hlength, hempty⟩ := hmoves.inv hinflight
  obtain ⟨-, -, -, -, -, -, hmoved, -, hdebug⟩ := hmoves.frame
  have hselecting := hmoves.phase_eq.trans hphase
  exact {
    inflight := hlength
    batch := hempty
    paused := by simp [hmoved, hpaused]
    timer := fun _ => htimer
    last := by simp [hselecting]
    close := by simp [hselecting]
    ended := by simp [hselecting]
    debugAssert := (hdebug.trans hassert).trans hinv.debugAssert }

theorem SequentialInv.arrange (hinv : SequentialInv actor) {phase : SequentialPhase}
    (hmoves : Moves { actor with inflight := [] } moved) (hphase : Continues actor.phase phase)
    (hlast : ∀ cause, phase = .flushing .last cause →
      moved.pendingMsgs = [] ∧ moved.batch.messages = []) :
    SequentialInv { moved with phase := phase } := by
  obtain ⟨hlength, hempty⟩ := hmoves.inv rfl
  obtain ⟨hrx, hclosed, htimer, -, -, -, hpaused, -, hdebug⟩ := hmoves.frame
  exact {
    inflight := hlength
    batch := hempty
    paused := by
      intro h
      obtain ⟨hpending, hbatch, -⟩ := hinv.paused (hpaused.symm.trans h)
      obtain ⟨hpending', hbatch', hinflight', -⟩ := hmoves.eq_of_nil rfl hpending hbatch
      exact ⟨hpending', hbatch', hinflight'⟩
    timer := by
      intro hselecting hne
      refine htimer.trans (hinv.timer (hphase.of_selecting hselecting) ?_)
      by_contra hnone
      simp only [ne_eq, not_or, not_not] at hnone
      obtain ⟨hpending', hbatch', -⟩ := hmoves.eq_of_nil rfl hnone.1 hnone.2
      exact hne.elim (absurd hpending') (absurd hbatch')
    last := hlast
    close := by
      intro stage hclose
      obtain ⟨earlier, hearlier⟩ := hphase.of_close hclose
      obtain ⟨hclosed', hrx'⟩ := hinv.close earlier hearlier
      exact ⟨hclosed.trans hclosed', hrx.trans hrx'⟩
    ended := fun h => absurd h hphase.ne_ended
    debugAssert := hdebug.trans hinv.debugAssert }

theorem SequentialInv.fail (hinv : SequentialInv actor) {phase : SequentialPhase}
    {answers : List Answer} (hfailing : Failing actor) (hphase : Continues actor.phase phase) :
    SequentialInv { actor with
      inflight := []
      paused := true
      pendingMsgs := []
      answers := answers
      phase := phase } where
  inflight := Nat.zero_le 1
  batch := by simp
  paused := fun _ => ⟨rfl, hinv.batch hfailing.inflight_ne, rfl⟩
  timer := by simp [hinv.batch hfailing.inflight_ne]
  last := fun _ _ => ⟨rfl, hinv.batch hfailing.inflight_ne⟩
  close := by
    intro stage hclose
    obtain ⟨earlier, hearlier⟩ := hphase.of_close hclose
    exact hinv.close earlier hearlier
  ended := fun h => absurd h hphase.ne_ended
  debugAssert := hinv.debugAssert

/-- Nothing is left once `flush_all` has returned. -/
theorem SequentialInv.finish (hinv : SequentialInv actor) {cause : FlushCause} {paused : Bool}
    (hphase : actor.phase = .flushing .last cause) :
    SequentialInv ({ actor with inflight := [], paused := paused }.afterFlushAll cause) := by
  obtain ⟨hpending, hbatch⟩ := hinv.last cause hphase
  have hempty : { actor with inflight := [], paused := paused }.pendingMsgs = [] ∧
      { actor with inflight := [], paused := paused }.batch.messages = [] ∧
      { actor with inflight := [], paused := paused }.inflight = [] := ⟨hpending, hbatch, rfl⟩
  cases cause with
  | timer =>
      exact {
        inflight := Nat.zero_le 1
        batch := fun _ => hbatch
        paused := fun _ => hempty
        timer := fun _ h => (h.elim (absurd hpending) (absurd hbatch))
        last := by simp [afterFlushAll]
        close := by simp [afterFlushAll]
        ended := by simp [afterFlushAll]
        debugAssert := hinv.debugAssert }
  | flush tx =>
      exact {
        inflight := Nat.zero_le 1
        batch := fun _ => hbatch
        paused := fun _ => hempty
        timer := fun _ h => (h.elim (absurd hpending) (absurd hbatch))
        last := by simp [afterFlushAll]
        close := by simp [afterFlushAll]
        ended := by simp [afterFlushAll]
        debugAssert := hinv.debugAssert }
  | close =>
      obtain ⟨hclosed, hrx⟩ := hinv.close .last hphase
      exact {
        inflight := Nat.zero_le 1
        batch := fun _ => hbatch
        paused := fun _ => hempty
        timer := by simp [afterFlushAll]
        last := by simp [afterFlushAll]
        close := by simp [afterFlushAll]
        ended := fun _ => ⟨hclosed, hrx, hempty⟩
        debugAssert := hinv.debugAssert }

theorem SequentialInv.of_step (hinv : SequentialInv actor) (h : Step actor event next) :
    SequentialInv next := by
  cases h with
  | idle => exact hinv
  | send command hphase hclosed =>
      exact { hinv with
        close := by
          intro stage hclose
          rw [(hinv.close stage hclose).1] at hclosed
          cases hclosed
        ended := fun h => absurd h hphase }
  | close hphase =>
      exact { hinv with
        close := fun stage hclose => ⟨rfl, (hinv.close stage hclose).2⟩
        ended := fun h => absurd h hphase }
  | complete messages response hinflight =>
      have hne : actor.inflight ≠ [] := by simp [hinflight]
      exact { hinv with
        inflight := Nat.le_refl 1
        batch := fun _ => hinv.batch hne
        paused := fun h => absurd (hinv.paused h).2.2 hne
        ended := fun h => absurd (hinv.ended h).2.2.2.2 hne }
  | beginFlush cause rx hphase hpaused hrx =>
      exact { hinv with
        timer := by simp
        last := by simp
        close := by
          intro stage hclose
          simp only [SequentialPhase.flushing.injEq] at hclose
          obtain ⟨-, rfl⟩ := hclose
          obtain ⟨hcause, -⟩ | ⟨_, hcause, -⟩ | ⟨-, hrx, -, hclosed⟩ := hrx
          · cases hcause
          · cases hcause
          · exact ⟨hclosed, hrx⟩
        ended := by simp }
  | refuse msg rx hphase hpaused hrx =>
      exact hinv.of_received hphase ⟨rfl, rfl, rfl⟩ rfl id hphase rfl
  | signal tx rx hphase hpaused hrx =>
      exact hinv.of_received hphase ⟨rfl, rfl, rfl⟩ rfl id hphase rfl
  | resume rx hphase hrx =>
      exact hinv.of_received hphase ⟨rfl, rfl, rfl⟩ rfl (by simp) hphase rfl
  | stop hphase hpaused hrx hclosed =>
      exact { hinv with
        timer := by simp
        last := by simp
        close := by simp
        ended := fun _ => ⟨hclosed, hrx, hinv.paused hpaused⟩ }
  | queue msg rx hphase hpaused hrx hinflight =>
      exact { hinv with
        paused := by simp [hpaused]
        timer := fun _ _ => rfl
        last := by simp [hphase]
        close := by simp [hphase]
        ended := by simp [hphase] }
  | accept msg rx moved timer hphase hpaused hrx hinflight hmoves htimer =>
      exact hinv.accept hmoves hinflight hphase hpaused rfl htimer
  | arrange moved phase hjoined hmoves hphase hlast => exact hinv.arrange hmoves hphase hlast
  | fail phase hfailing hphase => exact hinv.fail hfailing hphase
  | finish cause paused hphase hpaused => exact hinv.finish hphase

theorem SequentialInv.step (hinv : SequentialInv actor) (event : BatchActor.Event) :
    SequentialInv (actor.step event) :=
  hinv.of_step (step_cases hinv event)

theorem SequentialInv.run (hinv : SequentialInv actor) (events : List BatchActor.Event) :
    SequentialInv (actor.run events) :=
  Interleaving.foldl_invariant (fun _ event h => h.step event) hinv events

end SequentialBatchActor

end GoogleCloudRust.Publisher
