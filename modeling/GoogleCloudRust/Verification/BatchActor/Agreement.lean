import GoogleCloudRust.Verification.BatchActor.Limits

/-! # Both actors cut alike

Without timers, flushes and failures the concurrent and the sequential actor send the same batches.
-/

namespace GoogleCloudRust.Publisher

open Cutter

variable {topic : String} {options : BatchingOptions}

namespace BatchActor

/-- Messages that come in are small. -/
def Event.Small (event : Event) : Prop := ∀ msg, event = .send (.publish msg) → Publisher.Small msg

/-- Messages come in and are sent, and nothing else happens. -/
def Event.Undisturbing : Event → Prop
  | timer | send (.flush _) | complete _ (.err _) | complete _ .panic => False
  | _ => True

theorem Event.Undisturbing.calm {event : Event} (h : event.Undisturbing) : event.Calm := by
  cases event with
  | complete index response =>
      cases response with
      | panic => exact h
      | _ => trivial
  | _ => trivial

theorem Event.Undisturbing.outcome {index : ℕ} {response : Response}
    (h : (Event.complete index response).Undisturbing) (messages : List BundledMessage) :
    (batchResolvePublishFutures messages response).2 = .ok := by
  cases response with
  | ok messageIds => rfl
  | err error => exact h.elim
  | panic => exact h.elim

theorem Event.Undisturbing.rx {command : ToBatchActor} (h : (Event.send command).Undisturbing)
    {rx : List ToBatchActor} (hrx : ∀ tx, .flush tx ∉ rx) (tx : ℕ) :
    .flush tx ∉ rx ++ [command] := by
  intro hmem
  rcases List.mem_append.mp hmem with hmem | hmem
  · exact hrx tx hmem
  · rw [← List.mem_singleton.mp hmem] at h
    exact h

end BatchActor

/-! ## Concurrent actors -/

namespace ConcurrentBatchActor

variable {actor next : ConcurrentBatchActor} {event : BatchActor.Event}

structure Quiet (actor : ConcurrentBatchActor) : Prop where
  rx : ∀ tx, .flush tx ∉ actor.rx
  phase : ∀ tx, actor.phase ≠ .joining (some tx)
  calm : Calm actor.toBatchActor

theorem Quiet.of_step (h : Quiet actor) (hstep : Step actor event next)
    (hevent : event.Undisturbing) : Quiet next := by
  have hcalm := hstep.calm h.calm hevent.calm
  have hsuffix : ∀ {command rx}, actor.rx = command :: rx → ∀ tx, .flush tx ∉ rx :=
    fun hrx tx hmem => h.rx tx (hrx ▸ List.mem_cons_of_mem _ hmem)
  cases hstep with
  | idle => exact h
  | send command hphase hclosed => exact ⟨hevent.rx h.rx, h.phase, hcalm⟩
  | close hphase => exact ⟨h.rx, h.phase, hcalm⟩
  | complete index messages response htask hphase => exact ⟨h.rx, h.phase, hcalm⟩
  | joined index messages outcome htask hphase => exact ⟨h.rx, h.phase, hcalm⟩
  | flushTimer hphase =>
      have hkept := flush_kept actor
      exact ⟨by rw [hkept.rx]; exact h.rx, by rw [hkept.phase]; exact h.phase, hcalm⟩
  | startJoin tx rx hphase hrx =>
      have hkept := flush_kept { actor with rx := rx }
      obtain ⟨id, -, hrx⟩ | ⟨rfl, rfl, -, -⟩ := hrx
      · exact absurd (hrx ▸ List.mem_cons_self ..) (h.rx id)
      · exact ⟨by rw [hkept.rx]; simp, by simp, hcalm⟩
  | resume rx hphase hrx => exact ⟨hsuffix hrx, h.phase, hcalm⟩
  | accept msg rx moved timer hphase hrx hadded htimer =>
      refine ⟨by rw [hadded.kept.rx]; exact hsuffix hrx, ?_, hcalm⟩
      rw [hadded.kept.phase]
      exact h.phase
  | finish tx hphase hinflight =>
      cases tx with
      | some tx => exact absurd hphase (h.phase tx)
      | none => exact ⟨h.rx, by simp [afterJoinAll], hcalm⟩

theorem Quiet.step (h : Quiet actor) (hevent : event.Undisturbing) : Quiet (actor.step event) :=
  h.of_step (step_cases h.calm event) hevent

theorem quiet_new (topic : String) (options : BatchingOptions) : Quiet (.new topic options) :=
  ⟨by simp [new], by simp [new], by simp [new], by simp [new]⟩

theorem Quiet.undisturbed (h : Quiet actor) (hevent : event.Undisturbing) :
    Undisturbed actor event := by
  refine ⟨?_, h.rx, h.phase⟩
  rintro rfl
  exact hevent

theorem refines (hlimits : SmallLimits topic options) :
    Refines (limitsOf topic options) step cutter
      (fun actor => BatchActor.Ready topic options actor.toBatchActor) BatchActor.Event.Small
      Undisturbed :=
  ⟨fun _ event hready hwithin hsmall => step_advances hlimits hready hwithin event hsmall⟩

end ConcurrentBatchActor

/-! ## Sequential actors -/

namespace SequentialBatchActor

variable {actor next : SequentialBatchActor} {event : BatchActor.Event}

structure Quiet (actor : SequentialBatchActor) : Prop where
  rx : ∀ tx, .flush tx ∉ actor.rx
  paused : actor.paused = false
  phase : ∀ stage cause, actor.phase = .flushing stage cause → cause = .close
  inflight : ∀ task ∈ actor.inflight, ∀ outcome, task.outcome = some outcome → outcome = .ok

theorem quiet_new (topic : String) (options : BatchingOptions) : Quiet (.new topic options) :=
  ⟨by simp [new], rfl, by simp [new], by simp [new]⟩

theorem Quiet.undisturbed (h : Quiet actor) (hevent : event.Undisturbing) :
    Undisturbed actor event := by
  refine ⟨?_, h.rx, h.paused, h.phase, h.inflight⟩
  rintro rfl
  exact hevent

theorem Quiet.flush (h : Quiet actor) : Quiet actor.flush := by
  rw [SequentialBatchActor.flush]
  by_cases hnil : actor.batch.messages = []
  · rw [BatchActor.flush_of_empty hnil]
    exact h
  · rw [BatchActor.flush_of_ne hnil]
    refine ⟨h.rx, h.paused, h.phase, fun task hmem => ?_⟩
    rcases List.mem_append.mp hmem with hmem | hmem
    · exact h.inflight task hmem
    · rw [List.mem_singleton.mp hmem]
      simp

theorem Quiet.moveToBatchAndFlush (h : Quiet actor) : Quiet actor.moveToBatchAndFlush := by
  rw [SequentialBatchActor.moveToBatchAndFlush]
  have hmoved : ∀ batch pendingMsgs debugAssert, Quiet { actor with
      batch := batch, pendingMsgs := pendingMsgs, debugAssert := debugAssert } :=
    fun _ _ _ => ⟨h.rx, h.paused, h.phase, h.inflight⟩
  simp only
  split_ifs
  · exact (hmoved _ _ _).flush
  · exact hmoved _ _ _

theorem Quiet.continueFlushAll (h : Quiet actor) (stage : FlushStage) :
    Quiet (actor.continueFlushAll stage .close) := by
  have hphase : ∀ moved : SequentialBatchActor, Quiet moved → ∀ stage,
      Quiet { moved with phase := .flushing stage .close } := by
    intro moved hmoved stage
    refine ⟨hmoved.rx, hmoved.paused, ?_, hmoved.inflight⟩
    intro other cause heq
    cases heq
    rfl
  rw [SequentialBatchActor.continueFlushAll.eq_def]
  cases stage with
  | last => exact ⟨h.rx, h.paused, by simp [afterFlushAll], h.inflight⟩
  | _ =>
      simp only
      split_ifs
      · exact hphase _ h.flush .last
      · exact hphase _ h.moveToBatchAndFlush .loop

theorem Quiet.receive (h : Quiet actor) {command : Option ToBatchActor} {shared : BatchActor}
    (hrecv : actor.toBatchActor.recv = some (command, shared)) :
    Quiet ({ actor with toBatchActor := shared }.receive command) := by
  have htimer : ∀ (moved : SequentialBatchActor) timer, Quiet moved →
      Quiet { moved with timer := timer } :=
    fun _ _ hmoved => ⟨hmoved.rx, hmoved.paused, hmoved.phase, hmoved.inflight⟩
  obtain ⟨sent, rfl, hrx, hshared⟩ | ⟨rfl, hrx, hclosed, rfl⟩ := BatchActor.recv_eq_some hrecv
  · have hsuffix : ∀ tx, .flush tx ∉ shared.rx :=
      fun tx hmem => h.rx tx (hrx ▸ List.mem_cons_of_mem sent hmem)
    rw [hshared]
    cases sent with
    | publish msg =>
        have hqueued : Quiet { actor with
            rx := shared.rx
            received := actor.received ++ [msg]
            pendingMsgs := actor.pendingMsgs ++ [msg] } :=
          ⟨hsuffix, h.paused, h.phase, h.inflight⟩
        rw [SequentialBatchActor.receive]
        simp only
        by_cases hinflight : actor.inflight.isEmpty = true
        · rw [if_pos hinflight]
          split_ifs
          · exact htimer _ false hqueued.moveToBatchAndFlush
          · exact htimer _ true hqueued.moveToBatchAndFlush
        · rw [if_neg hinflight]
          split_ifs
          · exact htimer _ false hqueued
          · exact htimer _ true hqueued
    | flush tx => exact absurd (hrx ▸ List.mem_cons_self ..) (h.rx tx)
    | resumePublish => exact ⟨hsuffix, h.paused, h.phase, h.inflight⟩
  · refine ⟨h.rx, h.paused, ?_, h.inflight⟩
    intro stage cause heq
    cases heq
    rfl

theorem Quiet.join (h : Quiet actor) (index : ℕ) : Quiet (actor.join index) := by
  have hjoined : ∀ {outcome shared}, actor.joinNext index = some (outcome, shared) →
      Quiet ({ actor with toBatchActor := shared }.handleInflightJoin (some outcome)) ∧
        ({ actor with toBatchActor := shared }.handleInflightJoin (some outcome)).phase =
          actor.phase := by
    intro outcome shared hjoin
    obtain ⟨messages, htask, rfl⟩ := BatchActor.joinNext_eq_some hjoin
    obtain rfl := h.inflight _ (List.mem_of_getElem? htask) outcome rfl
    exact ⟨⟨h.rx, h.paused, h.phase, fun task hmem => h.inflight task (List.mem_of_mem_eraseIdx hmem)⟩,
      rfl⟩
  rw [SequentialBatchActor.join]
  split
  · rename_i hphase
    rw [if_neg (by simp [h.paused])]
    split
    · rename_i outcome shared hjoin
      exact (hjoined hjoin).1.moveToBatchAndFlush
    · exact h
  · rename_i stage cause hphase
    obtain rfl := h.phase stage cause hphase
    split_ifs
    · exact h.continueFlushAll stage
    · split
      · rename_i outcome shared hjoin
        exact (hjoined hjoin).1.continueFlushAll stage
      · exact h
  · exact h

theorem Quiet.step (h : Quiet actor) (hevent : event.Undisturbing) : Quiet (actor.step event) := by
  by_cases hended : actor.phase = .ended
  · rw [SequentialBatchActor.step.eq_def, if_pos hended]
    exact h
  · rw [SequentialBatchActor.step.eq_def, if_neg hended]
    cases event with
    | send command =>
        simp only
        split_ifs
        · exact h
        · exact ⟨hevent.rx h.rx, h.paused, h.phase, h.inflight⟩
    | close => exact ⟨h.rx, h.paused, h.phase, h.inflight⟩
    | complete index response =>
        rcases BatchActor.complete_cases actor.toBatchActor index response with
          hsame | ⟨messages, -, hcomplete⟩
        · simp only [hsame]
          exact h
        · simp only [hcomplete]
          refine ⟨h.rx, h.paused, h.phase, fun task hmem outcome houtcome => ?_⟩
          rcases List.mem_or_eq_of_mem_set hmem with hmem | rfl
          · exact h.inflight task hmem outcome houtcome
          · rw [hevent.outcome messages] at houtcome
            exact (Option.some.inj houtcome).symm
    | join index => exact h.join index
    | timer => exact hevent.elim
    | recv =>
        simp only
        by_cases hphase : actor.phase = .selecting
        · rw [if_pos hphase]
          split
          · rename_i command shared hrecv
            rw [if_neg (by simp [h.paused])]
            exact h.receive hrecv
          · exact h
        · rw [if_neg hphase]
          exact h

theorem refines (hlimits : SmallLimits topic options) :
    Refines (limitsOf topic options) step cutter (Ready topic options) BatchActor.Event.Small
      Undisturbed :=
  ⟨fun _ event hready hwithin hsmall => step_advances hlimits hready hwithin event hsmall⟩

end SequentialBatchActor

/-! ## Limits and agreement -/

/-- The batches that were sent keep the limits, and the size of the open batch is exact. -/
structure KeepsLimits (topic : String) (options : BatchingOptions) (actor : BatchActor) : Prop where
  batches : ∀ batch ∈ actor.batches, batch ≠ [] ∧
    batch.length ≤ max 1 options.messageCountThreshold.toNat ∧
    (batch.length = 1 ∨
      topic.utf8ByteSize + (batch.map fun msg => Batch.messageSize msg.msg).sum ≤
        options.byteThreshold.toNat)
  size : actor.batch.messagesByteSize.toNat =
    topic.utf8ByteSize + (actor.batch.messages.map fun msg => Batch.messageSize msg.msg).sum

theorem keepsLimits_of_within {actor : BatchActor} (hready : BatchActor.Ready topic options actor)
    (hwithin : actor.cut.Within (limitsOf topic options)) : KeepsLimits topic options actor := by
  refine ⟨fun batch hmem => ?_, hready.exact.size⟩
  have hsendable := hwithin.full batch hmem
  exact ⟨hsendable.ne_nil, hsendable.count, hsendable.weight⟩

/-- Two actors that have cut the same messages agree. -/
theorem agree_of_greedy {first second : Cutter BundledMessage}
    (hfirst : Greedy (limitsOf topic options) first)
    (hsecond : Greedy (limitsOf topic options) second) (hwaiting : first.waiting = [])
    (hreceived : first.received = second.received) :
    (first.closed = false → second.closed = false → second.cut.full <+: first.cut.full ∧
      (second.waiting = [] → second.cut = first.cut)) ∧
    (first.closed = true → second.closed = true → second.cut = first.cut) := by
  constructor
  · intro hopen hopen'
    have hline := hfirst.line hopen
    rw [hwaiting, List.foldl_nil, hreceived, ← hsecond.line hopen'] at hline
    rw [hline]
    refine ⟨Batches.full_prefix_foldl _ _, fun hnil => ?_⟩
    rw [hnil, List.foldl_nil]
  · intro hclosed hclosed'
    rw [(hfirst.closed hclosed).2, (hsecond.closed hclosed').2, hreceived]

/-- In every run both actors keep the limits of a batch, and no size overflows. Undisturbed they cut
the same messages into the same batches. -/
theorem run_keeps_limits (topic : String) (options : BatchingOptions)
    (htopic : topic.utf8ByteSize < 2 ^ 30) (hbytes : options.byteThreshold.toNat < 2 ^ 30)
    (events events' : List BatchActor.Event)
    (hsmall : ∀ msg, .send (.publish msg) ∈ events → Batch.messageSize msg.msg < 2 ^ 30)
    (hsmall' : ∀ msg, .send (.publish msg) ∈ events' → Batch.messageSize msg.msg < 2 ^ 30)
    (concurrent : ConcurrentBatchActor) (sequential : SequentialBatchActor)
    (hconcurrent : concurrent = events.foldl ConcurrentBatchActor.step (.new topic options))
    (hsequential : sequential = events'.foldl SequentialBatchActor.step (.new topic options)) :
    (KeepsLimits topic options concurrent.toBatchActor ∧
      ∀ msg, Batch.messageSize msg.msg < 2 ^ 30 →
        AddsExactly concurrent.batch msg ∧ AddsExactly concurrent.flush.batch msg) ∧
    (KeepsLimits topic options sequential.toBatchActor ∧
      ∀ pendingMsgs : List BundledMessage, (∀ msg ∈ pendingMsgs, Batch.messageSize msg.msg < 2 ^ 30) →
        LoopAddsExactly sequential.batch pendingMsgs) ∧
    ((∀ event ∈ events, event.Undisturbing) → (∀ event ∈ events', event.Undisturbing) →
      concurrent.received = sequential.received →
        (concurrent.phase = .selecting → sequential.phase = .selecting →
          sequential.batches <+: concurrent.batches ∧
          (sequential.pendingMsgs = [] → sequential.batches = concurrent.batches ∧
            sequential.batch.messages = concurrent.batch.messages)) ∧
        (concurrent.phase = .ended → sequential.phase = .ended →
          sequential.batches = concurrent.batches)) := by
  subst hconcurrent hsequential
  have hlimits : SmallLimits topic options := ⟨htopic, hbytes⟩
  have hallowed : ∀ event ∈ events, event.Small :=
    fun event hmem msg heq => hsmall msg (heq ▸ hmem)
  have hallowed' : ∀ event ∈ events', event.Small :=
    fun event hmem msg heq => hsmall' msg (heq ▸ hmem)
  have hnew : BatchActor.Ready topic options (ConcurrentBatchActor.new topic options).toBatchActor :=
    ⟨exact_new hlimits, by simp [ConcurrentBatchActor.new]⟩
  have hnew' : SequentialBatchActor.Ready topic options (.new topic options) :=
    ⟨⟨exact_new hlimits, by simp [SequentialBatchActor.new]⟩, by simp [SequentialBatchActor.new]⟩
  have hrefines := ConcurrentBatchActor.refines hlimits
  have hrefines' := SequentialBatchActor.refines hlimits
  obtain ⟨hready, hwithin⟩ := hrefines.foldl_within hnew Batches.within_empty hallowed
  obtain ⟨hready', hwithin'⟩ := hrefines'.foldl_within hnew' Batches.within_empty hallowed'
  refine ⟨⟨keepsLimits_of_within hready hwithin, ?_⟩,
    ⟨keepsLimits_of_within hready'.shared hwithin', ?_⟩, ?_⟩
  · intro msg hmsg
    exact ⟨hready.exact.addsExactly hlimits hwithin.batch hmsg,
      (BatchActor.flush_cuts hready.exact).exact.addsExactly hlimits
        (.inl (BatchActor.flush_messages _)) hmsg⟩
  · intro pendingMsgs hpending
    exact (moveToBatch_moved hlimits _ pendingMsgs hpending hready'.shared.exact hwithin').2
  · intro hevents hevents' hreceived
    have hgreedy := hrefines.foldl_greedy (fun _ _ h hevent => h.step hevent)
      (fun _ _ h hevent => h.undisturbed hevent) hnew (ConcurrentBatchActor.quiet_new topic options)
      greedy_new hallowed hevents
    have hgreedy' := hrefines'.foldl_greedy (fun _ _ h hevent => h.step hevent)
      (fun _ _ h hevent => h.undisturbed hevent) hnew' (SequentialBatchActor.quiet_new topic options)
      greedy_new hallowed' hevents'
    obtain ⟨hopen, hclosed⟩ := agree_of_greedy hgreedy hgreedy' rfl hreceived
    constructor
    · intro hphase hphase'
      obtain ⟨hfront, hsame⟩ := hopen (congrArg ConcurrentPhase.isClosed hphase)
        (congrArg SequentialPhase.isClosed hphase')
      refine ⟨hfront, fun hpending => ?_⟩
      have hcut := hsame hpending
      exact ⟨congrArg Batches.full hcut, congrArg Batches.batch hcut⟩
    · intro hphase hphase'
      exact congrArg Batches.full (hclosed (congrArg ConcurrentPhase.isClosed hphase)
        (congrArg SequentialPhase.isClosed hphase'))

def smallMessage (tx : ℕ) : BundledMessage := ⟨⟨[1, 2], [], ""⟩, tx⟩

/-- Three messages in batches of two, until the channel is closed and the actors have ended. -/
def threeMessages (last : List BatchActor.Event) : List BatchActor.Event :=
  [BatchActor.Event.send (.publish (smallMessage 0)), .send (.publish (smallMessage 1)),
    .send (.publish (smallMessage 2)), .close, .recv, .recv, .recv,
    .complete 0 (.ok ["0", "1"]), .join 0, .recv] ++ last

theorem run_keeps_limits_three :
    (SequentialBatchActor.run (.new "t" ⟨2, 100⟩)
        (threeMessages [.join 0, .complete 0 (.ok ["2"]), .join 0])).batches =
      ((threeMessages [.complete 0 (.ok ["2"]), .join 0, .join 0]).foldl ConcurrentBatchActor.step
        (.new "t" ⟨2, 100⟩)).batches := by
  have hsmall : ∀ last : List BatchActor.Event, (∀ msg, .send (.publish msg) ∉ last) →
      ∀ msg, .send (.publish msg) ∈ threeMessages last → Batch.messageSize msg.msg < 2 ^ 30 := by
    intro last hlast msg hmem
    rcases List.mem_append.mp hmem with hmem | hmem
    · simp only [List.mem_cons, BatchActor.Event.send.injEq, ToBatchActor.publish.injEq, reduceCtorEq,
        List.not_mem_nil, or_false] at hmem
      rcases hmem with rfl | rfl | rfl
      all_goals decide
    · exact absurd hmem (hlast msg)
  refine ((run_keeps_limits "t" ⟨2, 100⟩ (by decide) (by decide)
    (threeMessages [.complete 0 (.ok ["2"]), .join 0, .join 0])
    (threeMessages [.join 0, .complete 0 (.ok ["2"]), .join 0]) (hsmall _ (by simp))
    (hsmall _ (by simp)) _ _ rfl rfl).2.2 ?_ ?_ ?_).2 ?_ ?_
  · simp [threeMessages, BatchActor.Event.Undisturbing]
  · simp [threeMessages, BatchActor.Event.Undisturbing]
  · rfl
  · rfl
  · rfl

end GoogleCloudRust.Publisher
