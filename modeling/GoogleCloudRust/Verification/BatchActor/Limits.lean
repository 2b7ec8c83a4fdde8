import GoogleCloudRust.Verification.BatchActor.Concurrent
import GoogleCloudRust.Verification.BatchActor.Cutting
import GoogleCloudRust.Verification.BatchActor.Ordering

/-! # Limits of batches

Whatever comes between, both actors keep the limits of a batch. Left alone they cut the same messages
into the same batches. -/

namespace GoogleCloudRust.Publisher

open Cutter

variable {topic : String} {options : BatchingOptions} {msg : BundledMessage}

/-! ## What the actors share -/

namespace BatchActor

variable {actor moved : BatchActor}

def cut (actor : BatchActor) : Batches BundledMessage := ⟨actor.batches, actor.batch.messages⟩

/-- The sizes are exact, and will be. -/
structure Ready (topic : String) (options : BatchingOptions) (actor : BatchActor) : Prop where
  exact : Exact topic options actor.batch
  rx : ∀ msg, .publish msg ∈ actor.rx → Small msg

/-- What else cutting keeps. -/
structure Cuts (topic : String) (options : BatchingOptions) (actor moved : BatchActor)
    (batches : Batches BundledMessage) : Prop where
  exact : Exact topic options moved.batch
  cut : moved.cut = batches
  rx : moved.rx = actor.rx
  received : moved.received = actor.received

theorem Cuts.ready {batches : Batches BundledMessage} (h : Cuts topic options actor moved batches)
    (hready : Ready topic options actor) : Ready topic options moved :=
  ⟨h.exact, by rw [h.rx]; exact hready.rx⟩

theorem Cuts.trans {later : BatchActor} {batches batches' : Batches BundledMessage}
    (h : Cuts topic options actor moved batches) (h' : Cuts topic options moved later batches') :
    Cuts topic options actor later batches' :=
  ⟨h'.exact, h'.cut, h'.rx.trans h.rx, h'.received.trans h.received⟩

theorem flush_cuts (h : Exact topic options actor.batch) :
    Cuts topic options actor actor.flush actor.cut.close := by
  by_cases hnil : actor.batch.messages = []
  · rw [flush_of_empty hnil]
    exact ⟨h, (@Batches.close_of_nil _ actor.cut hnil).symm, rfl, rfl⟩
  · rw [flush_of_ne hnil]
    exact ⟨h.drainMessages, (@Batches.close_of_ne _ actor.cut hnil).symm, rfl, rfl⟩

theorem Ready.send (h : Ready topic options actor) {command : ToBatchActor}
    (hsmall : ∀ msg, command = .publish msg → Small msg) :
    Ready topic options { actor with rx := actor.rx ++ [command] } := by
  refine ⟨h.exact, fun msg hmem => ?_⟩
  rcases List.mem_append.mp hmem with hmem | hmem
  · exact h.rx msg hmem
  · exact hsmall msg (List.mem_singleton.mp hmem).symm

theorem Ready.complete (h : Ready topic options actor) (index : ℕ) (response : Response) :
    Ready topic options (actor.complete index response) ∧
      (actor.complete index response).cut = actor.cut ∧
      (actor.complete index response).received = actor.received := by
  rcases complete_cases actor index response with hsame | ⟨messages, -, hcomplete⟩
  · rw [hsame]
    exact ⟨h, rfl, rfl⟩
  · rw [hcomplete]
    exact ⟨⟨h.exact, h.rx⟩, rfl, rfl⟩

/-- Adds to the batch, and flushes it at a threshold. -/
def pushAndFlush (actor : BatchActor) (msg : BundledMessage) : BatchActor :=
  if (actor.batch.push msg).atThreshold then
    flush { actor with batch := actor.batch.push msg }
  else { actor with batch := actor.batch.push msg }

/-- A message that fits or comes first is added. -/
theorem push_cuts (hlimits : SmallLimits topic options) (h : Exact topic options actor.batch)
    (hopen : IsOpen topic options actor.batch) (hsmall : Small msg) :
    Cuts topic options actor (actor.pushAndFlush msg)
      (Batches.add (limitsOf topic options) actor.cut msg) := by
  have hpushed := h.push (h.addsExactly hlimits hopen hsmall)
  have hthreshold := hpushed.atThreshold_iff (by
    have hlength := hopen.length_lt
    rwa [Batch.push, List.length_append])
  rw [pushAndFlush, Batches.add]
  by_cases hfull : (actor.batch.push msg).atThreshold = true
  · have hclosed : (limitsOf topic options).Full (actor.cut.batch ++ [msg]) := hthreshold.mp hfull
    rw [if_pos hfull, if_pos hclosed]
    have hflush := @flush_cuts _ _ { actor with batch := actor.batch.push msg } hpushed
    exact ⟨hflush.exact, hflush.cut, hflush.rx, hflush.received⟩
  · have hopenNext : ¬(limitsOf topic options).Full (actor.cut.batch ++ [msg]) :=
      fun h => hfull (hthreshold.mpr h)
    rw [if_neg hfull, if_neg hopenNext]
    exact ⟨hpushed, rfl, rfl, rfl⟩

end BatchActor

/-! ## Concurrent actors -/

/-- The channel is closed, and the last batch is sent. -/
def ConcurrentPhase.isClosed : ConcurrentPhase → Bool
  | .selecting | .joining (some _) => false
  | .joining none | .ended | .panicked => true

namespace ConcurrentBatchActor

open BatchActor

variable {actor : ConcurrentBatchActor} {event : BatchActor.Event}

def cutter (actor : ConcurrentBatchActor) : Cutter BundledMessage where
  cut := actor.cut
  received := actor.received
  closed := actor.phase.isClosed

/-- Nothing but messages makes the actor send. -/
structure Undisturbed (actor : ConcurrentBatchActor) (event : BatchActor.Event) : Prop where
  event : event ≠ .timer
  rx : ∀ tx, .flush tx ∉ actor.rx
  phase : ∀ tx, actor.phase ≠ .joining (some tx)

/-- What a step does to the messages. -/
def Advances (topic : String) (options : BatchingOptions) (calm : Prop)
    (actor next : ConcurrentBatchActor) : Prop :=
  Ready topic options next.toBatchActor ∧ Steps (limitsOf topic options) calm actor.cutter next.cutter

theorem Advances.of_eq {calm : Prop} {next : ConcurrentBatchActor}
    (hready : Ready topic options next.toBatchActor) (hcut : next.cut = actor.cut)
    (hreceived : next.received = actor.received)
    (hclosed : next.phase.isClosed = actor.phase.isClosed) :
    Advances topic options calm actor next := by
  have hsame : next.cutter = actor.cutter := by rw [cutter, cutter, hcut, hreceived, hclosed]
  exact ⟨hready, hsame ▸ .refl⟩

theorem addMsgAndFlush_eq (actor : ConcurrentBatchActor) (msg : BundledMessage) :
    (actor.addMsgAndFlush msg).toBatchActor =
      if actor.batch.canAdd msg then actor.toBatchActor.pushAndFlush msg
      else actor.toBatchActor.flush.pushAndFlush msg := by
  rw [addMsgAndFlush]
  cases hfits : actor.batch.canAdd msg with
  | true =>
      simp only [Bool.not_true, Bool.false_eq_true, if_false, if_true, pushAndFlush]
      split_ifs <;> rfl
  | false =>
      simp only [Bool.not_false, if_true, Bool.false_eq_true, if_false, pushAndFlush, flush]
      split_ifs <;> rfl

theorem addMsgAndFlush_cuts (hlimits : SmallLimits topic options)
    (h : Exact topic options actor.batch) (hopen : IsOpen topic options actor.batch)
    (hsmall : Small msg) :
    Cuts topic options actor.toBatchActor (actor.addMsgAndFlush msg).toBatchActor
      (actor.cut.offer (limitsOf topic options) msg) := by
  have hcanAdd := h.canAdd_iff (h.addsExactly hlimits hopen hsmall)
  rw [addMsgAndFlush_eq, Batches.offer]
  by_cases hfits : actor.batch.canAdd msg = true
  · have hfits' : (limitsOf topic options).Fits actor.cut.batch msg := hcanAdd.mp hfits
    rw [if_pos hfits, if_pos hfits']
    exact push_cuts hlimits h hopen hsmall
  · have hfits' : ¬(limitsOf topic options).Fits actor.cut.batch msg := fun h => hfits (hcanAdd.mpr h)
    rw [if_neg hfits, if_neg hfits']
    have hflush := flush_cuts h
    have hpush := push_cuts hlimits hflush.exact (.inl (flush_messages _)) hsmall
    rw [hflush.cut] at hpush
    exact hflush.trans hpush

theorem receive_advances (hlimits : SmallLimits topic options)
    (hready : Ready topic options actor.toBatchActor)
    (hwithin : actor.cut.Within (limitsOf topic options)) (hphase : actor.phase = .selecting)
    {command : Option ToBatchActor} {shared : BatchActor}
    (hrecv : actor.toBatchActor.recv = some (command, shared)) :
    Advances topic options (Undisturbed actor event) actor
      (receive { actor with toBatchActor := shared } command) := by
  have hopened : actor.cutter.closed = false := by
    rw [cutter, hphase]
    rfl
  obtain ⟨sent, rfl, hrx, hshared⟩ | ⟨rfl, hrx, hclosed, rfl⟩ := BatchActor.recv_eq_some hrecv
  · have hshort : ∀ msg, .publish msg ∈ shared.rx → Small msg :=
      fun msg hmem => hready.rx msg (hrx ▸ List.mem_cons_of_mem sent hmem)
    rw [hshared]
    cases sent with
    | publish msg =>
        have hsmall := hready.rx msg (hrx ▸ List.mem_cons_self ..)
        have hcuts := @addMsgAndFlush_cuts topic options msg
          { actor with rx := shared.rx, received := actor.received ++ [msg] } hlimits hready.exact
          hwithin.batch hsmall
        have hphase' := (addMsgAndFlush_added
          { actor with rx := shared.rx, received := actor.received ++ [msg] } msg).kept.phase
        have hsteps : ∀ timer, Steps (limitsOf topic options) (Undisturbed actor event) actor.cutter
            (cutter { addMsgAndFlush { actor with
              rx := shared.rx
              received := actor.received ++ [msg] } msg with timer := timer }) := by
          intro timer
          have hwork := @Cutter.Step.work _ (limitsOf topic options) (Undisturbed actor event)
            { actor.cutter with waiting := [msg], received := actor.received ++ [msg] }
            (actor.cut.offer (limitsOf topic options) msg) [] hopened (fun h => h.offer msg)
            (fun _ => rfl)
          have hnext : cutter { addMsgAndFlush { actor with
              rx := shared.rx
              received := actor.received ++ [msg] } msg with timer := timer } =
              { actor.cutter with
                cut := actor.cut.offer (limitsOf topic options) msg
                received := actor.received ++ [msg] } := by
            have hmoved := hcuts.cut
            have hreceived := hcuts.received
            rw [cutter]
            simp only [BatchActor.cut] at hmoved ⊢
            rw [hmoved, hreceived, hphase']
            rfl
          rw [hnext]
          exact (Relation.ReflTransGen.single (.receive msg hopened)).tail hwork
        have hready' := hcuts.ready ⟨hready.exact, hshort⟩
        rw [receive]
        simp only
        split_ifs
        · exact ⟨⟨hready'.exact, hready'.rx⟩, hsteps false⟩
        · exact ⟨⟨hready'.exact, hready'.rx⟩, hsteps true⟩
    | flush tx =>
        have hcuts := @flush_cuts topic options { actor.toBatchActor with rx := shared.rx } hready.exact
        refine ⟨hcuts.ready ⟨hready.exact, hshort⟩, .single (.interrupt _ ?_ (.inr hcuts.cut))⟩
        intro hcalm
        exact hcalm.rx tx (hrx ▸ List.mem_cons_self ..)
    | resumePublish =>
        exact .of_eq ⟨hready.exact, hshort⟩ rfl rfl rfl
  · have hcuts := flush_cuts hready.exact
    refine ⟨hcuts.ready hready, .single ?_⟩
    have hclose := @Cutter.Step.close _ (limitsOf topic options) (Undisturbed actor event) actor.cutter
      hopened rfl
    have hnext : cutter { actor.flush with phase := .joining none } =
        { actor.cutter with cut := actor.cut.close, closed := true } := by
      change Cutter.mk actor.toBatchActor.flush.cut [] actor.toBatchActor.flush.received true = _
      rw [hcuts.cut, hcuts.received]
      rfl
    rw [receive]
    exact hnext ▸ hclose

theorem join_advances {calm : Prop} (hready : Ready topic options actor.toBatchActor)
    (hcalm : calm → ∀ tx, actor.phase ≠ .joining (some tx)) (index : ℕ) :
    Advances topic options calm actor (actor.join index) := by
  rw [join]
  cases hphase : actor.phase with
  | selecting =>
      cases hjoin : actor.joinNext index with
      | none => exact .of_eq hready rfl rfl rfl
      | some joined =>
          obtain ⟨messages, htask, hnext⟩ := BatchActor.joinNext_eq_some hjoin
          simp only [hnext]
          exact .of_eq ⟨hready.exact, hready.rx⟩ rfl rfl (by rw [hphase])
  | joining tx =>
      simp only
      split_ifs with hempty
      · cases tx with
        | some tx => exact .of_eq ⟨hready.exact, hready.rx⟩ rfl rfl (by rw [hphase]; rfl)
        | none => exact .of_eq ⟨hready.exact, hready.rx⟩ rfl rfl (by rw [hphase]; rfl)
      · cases hjoin : actor.joinNext index with
        | none => exact .of_eq hready rfl rfl rfl
        | some joined =>
            obtain ⟨messages, htask, hnext⟩ := BatchActor.joinNext_eq_some hjoin
            rcases joined with ⟨outcome, next⟩
            have hnext : next = { actor.toBatchActor with inflight := actor.inflight.eraseIdx index } :=
              hnext
            rw [hnext]
            have hready' : Ready topic options
                { actor.toBatchActor with inflight := actor.inflight.eraseIdx index } :=
              ⟨hready.exact, hready.rx⟩
            cases outcome with
            | panicked =>
                cases tx with
                | some tx =>
                    exact ⟨hready', .single (.interrupt _ (fun h => hcalm h tx hphase) (.inl rfl))⟩
                | none => exact .of_eq hready' rfl rfl (by rw [hphase]; rfl)
            | ok => exact .of_eq hready' rfl rfl (by rw [hphase])
            | err => exact .of_eq hready' rfl rfl (by rw [hphase])
  | ended => exact .of_eq hready rfl rfl rfl
  | panicked => exact .of_eq hready rfl rfl rfl

theorem step_advances (hlimits : SmallLimits topic options)
    (hready : Ready topic options actor.toBatchActor)
    (hwithin : actor.cut.Within (limitsOf topic options)) (event : BatchActor.Event)
    (hsmall : ∀ msg, event = .send (.publish msg) → Small msg) :
    Advances topic options (Undisturbed actor event) actor (actor.step event) := by
  by_cases hgone : actor.isGone = true
  · rw [step.eq_def, if_pos hgone]
    exact .of_eq hready rfl rfl rfl
  · rw [step.eq_def, if_neg hgone]
    cases event with
    | send command =>
        simp only
        split_ifs
        · exact .of_eq hready rfl rfl rfl
        · exact .of_eq (hready.send fun msg h => hsmall msg (by rw [h])) rfl rfl rfl
    | close => exact .of_eq ⟨hready.exact, hready.rx⟩ rfl rfl rfl
    | complete index response =>
        obtain ⟨hready', hcut, hreceived⟩ := hready.complete index response
        exact .of_eq hready' hcut hreceived rfl
    | join index => exact join_advances hready (fun h => h.phase) index
    | timer =>
        simp only
        split_ifs
        · have hcuts := flush_cuts hready.exact
          have hready' := hcuts.ready hready
          refine ⟨⟨hready'.exact, hready'.rx⟩, .single (.interrupt _ ?_ (.inr hcuts.cut))⟩
          exact fun h => h.event rfl
        · exact .of_eq hready rfl rfl rfl
    | recv =>
        simp only
        by_cases hphase : actor.phase = .selecting
        · rw [if_pos hphase]
          cases hrecv : actor.toBatchActor.recv with
          | none => exact .of_eq hready rfl rfl rfl
          | some received => exact receive_advances hlimits hready hwithin hphase hrecv
        · rw [if_neg hphase]
          exact .of_eq hready rfl rfl rfl

end ConcurrentBatchActor

/-! ## Sequential actors -/

/-- The channel is closed, and the last batch is sent. -/
def SequentialPhase.isClosed : SequentialPhase → Bool
  | .flushing .last .close | .ended => true
  | _ => false

namespace SequentialBatchActor

open BatchActor

variable {actor next : SequentialBatchActor} {event : BatchActor.Event} {calm : Prop}

def cutter (actor : SequentialBatchActor) : Cutter BundledMessage where
  cut := actor.cut
  waiting := actor.pendingMsgs
  received := actor.received
  closed := actor.phase.isClosed

/-- Nothing but messages makes the actor send, and no batch has failed. -/
structure Undisturbed (actor : SequentialBatchActor) (event : BatchActor.Event) : Prop where
  event : event ≠ .timer
  rx : ∀ tx, .flush tx ∉ actor.rx
  paused : actor.paused = false
  phase : ∀ stage cause, actor.phase = .flushing stage cause → cause = .close
  inflight : ∀ task ∈ actor.inflight, ∀ outcome, task.outcome = some outcome → outcome = .ok

structure Ready (topic : String) (options : BatchingOptions) (actor : SequentialBatchActor) :
    Prop where
  shared : BatchActor.Ready topic options actor.toBatchActor
  pendingMsgs : ∀ msg ∈ actor.pendingMsgs, Small msg

/-- What a step does to the messages. -/
def Advances (topic : String) (options : BatchingOptions) (calm : Prop)
    (actor next : SequentialBatchActor) : Prop :=
  Ready topic options next ∧ Steps (limitsOf topic options) calm actor.cutter next.cutter

theorem Advances.of_eq (hready : Ready topic options next) (hcut : next.cut = actor.cut)
    (hpending : next.pendingMsgs = actor.pendingMsgs) (hreceived : next.received = actor.received)
    (hclosed : next.phase.isClosed = actor.phase.isClosed) :
    Advances topic options calm actor next := by
  have hsame : next.cutter = actor.cutter := by
    rw [cutter, cutter, hcut, hpending, hreceived, hclosed]
  exact ⟨hready, hsame ▸ .refl⟩

theorem Advances.trans {middle : SequentialBatchActor}
    (h : Advances topic options calm actor middle) (h' : Advances topic options calm middle next) :
    Advances topic options calm actor next :=
  ⟨h'.1, h.2.trans h'.2⟩

theorem moveToBatchAndFlush_advances (hlimits : SmallLimits topic options)
    (hready : Ready topic options actor)
    (hwithin : actor.cut.Within (limitsOf topic options)) (hopened : actor.phase.isClosed = false) :
    Advances topic options calm actor actor.moveToBatchAndFlush ∧
      actor.moveToBatchAndFlush.phase = actor.phase := by
  obtain ⟨hmoved, -⟩ := moveToBatch_moved hlimits actor.batches actor.pendingMsgs hready.pendingMsgs
    hready.shared.exact hwithin
  rw [moveToBatchAndFlush]
  generalize hmove : moveToBatch actor.batch actor.pendingMsgs = move at hmoved
  obtain ⟨batch, pendingMsgs, shouldFlush⟩ := move
  have hpending : ∀ msg ∈ pendingMsgs, Small msg :=
    fun msg hmem => hready.pendingMsgs msg (hmoved.suffix.subset hmem)
  have hwork := @Cutter.Step.work _ (limitsOf topic options) calm actor.cutter
    (settle actor.batches (batch, pendingMsgs, shouldFlush)) pendingMsgs hopened
    (fun _ => hmoved.within) (fun _ => hmoved.line)
  cases shouldFlush with
  | false => exact ⟨⟨⟨⟨hmoved.exact, hready.shared.rx⟩, hpending⟩, .single hwork⟩, rfl⟩
  | true =>
      have hcuts := @flush_cuts topic options { actor.toBatchActor with batch := batch } hmoved.exact
      have hready' := hcuts.ready ⟨hmoved.exact, hready.shared.rx⟩
      refine ⟨⟨⟨hready', hpending⟩, .single ?_⟩, rfl⟩
      have hnext : settle actor.batches (batch, pendingMsgs, true) =
          (BatchActor.flush { actor.toBatchActor with batch := batch }).cut := hcuts.cut.symm
      have hreceived : actor.cutter.received =
          (BatchActor.flush { actor.toBatchActor with batch := batch }).received := hcuts.received.symm
      rw [hnext, hreceived] at hwork
      exact hwork

/-- A failure is an interruption. -/
theorem handleInflightJoin_advances (hready : Ready topic options actor) {outcome : Option Outcome}
    (hcalm : calm → ∀ failed, outcome = some failed → failed = .ok) :
    Advances topic options calm actor (actor.handleInflightJoin outcome) ∧
      (actor.handleInflightJoin outcome).phase = actor.phase ∧
      (actor.handleInflightJoin outcome).cut = actor.cut := by
  have hpause : ∀ failed, outcome = some failed → failed ≠ .ok →
      Advances topic options calm actor actor.pause := by
    intro failed hfailed hne
    exact ⟨⟨⟨hready.shared.exact, hready.shared.rx⟩, by simp [pause]⟩,
      .single (.interrupt _ (fun h => hne (hcalm h failed hfailed)) (.inl rfl))⟩
  cases outcome with
  | none => exact ⟨.of_eq hready rfl rfl rfl rfl, rfl, rfl⟩
  | some outcome =>
      cases outcome with
      | ok => exact ⟨.of_eq hready rfl rfl rfl rfl, rfl, rfl⟩
      | err => exact ⟨hpause .err rfl (by decide), rfl, rfl⟩
      | panicked => exact ⟨hpause .panicked rfl (by decide), rfl, rfl⟩

theorem continueFlushAll_advances (hlimits : SmallLimits topic options)
    (hready : Ready topic options actor) (hwithin : actor.cut.Within (limitsOf topic options))
    {stage : FlushStage} {cause : FlushCause} (hphase : actor.phase = .flushing stage cause)
    (hcalm : calm → cause = .close) :
    Advances topic options calm actor (actor.continueFlushAll stage cause) := by
  have hgoOn : stage ≠ .last → Advances topic options calm actor
      (if actor.pendingMsgs.isEmpty then { actor.flush with phase := .flushing .last cause }
      else { actor.moveToBatchAndFlush with phase := .flushing .loop cause }) := by
    intro hstage
    have hopened : actor.phase.isClosed = false := by
      rw [hphase]
      cases stage with
      | last => exact absurd rfl hstage
      | _ => rfl
    split_ifs with hempty
    · have hcuts := flush_cuts hready.shared.exact
      have hready' := hcuts.ready hready.shared
      refine ⟨⟨⟨hready'.exact, hready'.rx⟩, hready.pendingMsgs⟩, .single ?_⟩
      by_cases hclose : cause = .close
      · have hstep := @Cutter.Step.close _ (limitsOf topic options) calm actor.cutter hopened
          (List.isEmpty_iff.mp hempty)
        have hnext : cutter { actor.flush with phase := .flushing .last cause } =
            { actor.cutter with cut := actor.cut.close, closed := true } := by
          change Cutter.mk actor.toBatchActor.flush.cut actor.pendingMsgs
            actor.toBatchActor.flush.received _ = _
          rw [hcuts.cut, hcuts.received, hclose]
          rfl
        exact hnext ▸ hstep
      · exact .interrupt _ (fun h => hclose (hcalm h)) (.inr hcuts.cut)
    · obtain ⟨hadvances, hsame⟩ := @moveToBatchAndFlush_advances _ _ _ calm hlimits hready hwithin hopened
      refine hadvances.trans (.of_eq ⟨hadvances.1.shared, hadvances.1.pendingMsgs⟩ rfl rfl rfl ?_)
      rw [hsame, hopened]
      rfl
  cases stage with
  | first => exact hgoOn (by decide)
  | loop => exact hgoOn (by decide)
  | last =>
      have hshared := hready.shared
      cases cause with
      | close =>
          refine .of_eq ⟨⟨hshared.exact, hshared.rx⟩, hready.pendingMsgs⟩ rfl rfl rfl ?_
          rw [hphase]
          rfl
      | _ =>
          refine .of_eq ⟨⟨hshared.exact, hshared.rx⟩, hready.pendingMsgs⟩ rfl rfl rfl ?_
          rw [hphase]
          rfl

/-- A task leaves the set, and its outcome is handled. -/
theorem joined_advances (hready : Ready topic options actor) {index : ℕ} {outcome : Outcome}
    {shared : BatchActor} (hjoin : actor.joinNext index = some (outcome, shared))
    (hcalm : calm → ∀ task ∈ actor.inflight, ∀ outcome, task.outcome = some outcome → outcome = .ok) :
    Advances topic options calm actor
        ({ actor with toBatchActor := shared }.handleInflightJoin (some outcome)) ∧
      ({ actor with toBatchActor := shared }.handleInflightJoin (some outcome)).phase = actor.phase ∧
      ({ actor with toBatchActor := shared }.handleInflightJoin (some outcome)).cut = actor.cut := by
  obtain ⟨messages, htask, rfl⟩ := BatchActor.joinNext_eq_some hjoin
  have hok : calm → ∀ failed, some outcome = some failed → failed = .ok := by
    intro h failed hfailed
    exact hcalm h _ (List.mem_of_getElem? htask) failed hfailed
  have hready' : Ready topic options { actor with
      toBatchActor := { actor.toBatchActor with inflight := actor.inflight.eraseIdx index } } :=
    ⟨⟨hready.shared.exact, hready.shared.rx⟩, hready.pendingMsgs⟩
  obtain ⟨hadvances, hphase, hcut⟩ := handleInflightJoin_advances hready' hok
  exact ⟨(Advances.of_eq hready' rfl rfl rfl rfl).trans hadvances, hphase, hcut⟩

theorem join_advances (hlimits : SmallLimits topic options) (hready : Ready topic options actor)
    (hwithin : actor.cut.Within (limitsOf topic options)) (index : ℕ) :
    Advances topic options (Undisturbed actor event) actor (actor.join index) := by
  rw [join]
  split
  · rename_i hphase
    by_cases hpaused : actor.paused = true
    · rw [if_pos hpaused]
      exact .of_eq hready rfl rfl rfl rfl
    · rw [if_neg hpaused]
      split
      · rename_i outcome shared hjoin
        obtain ⟨hadvances, hsame, hcut⟩ := @joined_advances _ _ _ (Undisturbed actor event) hready _ _ _
          hjoin (fun h => h.inflight)
        refine hadvances.trans (moveToBatchAndFlush_advances hlimits hadvances.1 ?_ ?_).1
        · rwa [hcut]
        · rw [hsame, hphase]
          rfl
      · exact .of_eq hready rfl rfl rfl rfl
  · rename_i stage cause hphase
    have hclose : Undisturbed actor event → cause = .close := fun h => h.phase stage cause hphase
    by_cases hempty : actor.inflight.isEmpty = true
    · rw [if_pos hempty]
      exact continueFlushAll_advances hlimits hready hwithin hphase hclose
    · rw [if_neg hempty]
      split
      · rename_i outcome shared hjoin
        obtain ⟨hadvances, hsame, hcut⟩ := @joined_advances _ _ _ (Undisturbed actor event) hready _ _ _
          hjoin (fun h => h.inflight)
        refine hadvances.trans
          (continueFlushAll_advances hlimits hadvances.1 ?_ (hsame.trans hphase) hclose)
        rwa [hcut]
      · exact .of_eq hready rfl rfl rfl rfl
  · exact .of_eq hready rfl rfl rfl rfl

theorem receivePaused_advances (hready : Ready topic options actor) (hpaused : actor.paused = true)
    {command : Option ToBatchActor} {shared : BatchActor}
    (hrecv : actor.toBatchActor.recv = some (command, shared)) :
    Advances topic options (Undisturbed actor event) actor
      (receivePaused { actor with toBatchActor := shared } command) := by
  have hnot : ¬Undisturbed actor event := fun h => absurd (h.paused.symm.trans hpaused) Bool.false_ne_true
  obtain ⟨sent, rfl, hrx, hshared⟩ | ⟨rfl, hrx, hclosed, rfl⟩ := BatchActor.recv_eq_some hrecv
  · have hshort : ∀ msg, .publish msg ∈ shared.rx → Small msg :=
      fun msg hmem => hready.shared.rx msg (hrx ▸ List.mem_cons_of_mem sent hmem)
    rw [hshared]
    cases sent with
    | publish msg =>
        exact ⟨⟨⟨hready.shared.exact, hshort⟩, hready.pendingMsgs⟩, .single (.interrupt _ hnot (.inl rfl))⟩
    | flush tx =>
        exact ⟨⟨⟨hready.shared.exact, hshort⟩, hready.pendingMsgs⟩, .single (.interrupt _ hnot (.inl rfl))⟩
    | resumePublish =>
        exact ⟨⟨⟨hready.shared.exact, hshort⟩, hready.pendingMsgs⟩, .single (.interrupt _ hnot (.inl rfl))⟩
  · exact ⟨⟨⟨hready.shared.exact, hready.shared.rx⟩, hready.pendingMsgs⟩,
      .single (.interrupt _ hnot (.inl rfl))⟩

theorem receive_advances (hlimits : SmallLimits topic options) (hready : Ready topic options actor)
    (hwithin : actor.cut.Within (limitsOf topic options)) (hphase : actor.phase = .selecting)
    {command : Option ToBatchActor} {shared : BatchActor}
    (hrecv : actor.toBatchActor.recv = some (command, shared)) :
    Advances topic options calm actor (receive { actor with toBatchActor := shared } command) := by
  have hopened : actor.phase.isClosed = false := by
    rw [hphase]
    rfl
  obtain ⟨sent, rfl, hrx, hshared⟩ | ⟨rfl, hrx, hclosed, rfl⟩ := BatchActor.recv_eq_some hrecv
  · have hshort : ∀ msg, .publish msg ∈ shared.rx → Small msg :=
      fun msg hmem => hready.shared.rx msg (hrx ▸ List.mem_cons_of_mem sent hmem)
    rw [hshared]
    cases sent with
    | publish msg =>
        have hsmall := hready.shared.rx msg (hrx ▸ List.mem_cons_self ..)
        have hqueued : Advances topic options calm actor { actor with
            rx := shared.rx
            received := actor.received ++ [msg]
            pendingMsgs := actor.pendingMsgs ++ [msg] } := by
          refine ⟨⟨⟨hready.shared.exact, hshort⟩, ?_⟩, .single (.receive msg hopened)⟩
          intro other hmem
          rcases List.mem_append.mp hmem with hmem | hmem
          · exact hready.pendingMsgs other hmem
          · rw [List.mem_singleton.mp hmem]
            exact hsmall
        have hmoved := hqueued.trans
          (moveToBatchAndFlush_advances hlimits hqueued.1 hwithin hopened).1
        have harmed : ∀ (moved : SequentialBatchActor) timer, Advances topic options calm actor moved →
            Advances topic options calm actor { moved with timer := timer } := by
          intro moved timer hadvances
          exact ⟨⟨⟨hadvances.1.shared.exact, hadvances.1.shared.rx⟩, hadvances.1.pendingMsgs⟩,
            hadvances.2⟩
        rw [receive]
        simp only
        by_cases hinflight : actor.inflight.isEmpty = true
        · rw [if_pos hinflight]
          split_ifs
          · exact harmed _ false hmoved
          · exact harmed _ true hmoved
        · rw [if_neg hinflight]
          split_ifs
          · exact harmed _ false hqueued
          · exact harmed _ true hqueued
    | flush tx =>
        refine .of_eq ⟨⟨hready.shared.exact, hshort⟩, hready.pendingMsgs⟩ rfl rfl rfl ?_
        rw [hopened]
        rfl
    | resumePublish => exact .of_eq ⟨⟨hready.shared.exact, hshort⟩, hready.pendingMsgs⟩ rfl rfl rfl rfl
  · refine .of_eq ⟨⟨hready.shared.exact, hready.shared.rx⟩, hready.pendingMsgs⟩ rfl rfl rfl ?_
    rw [hopened]
    rfl

theorem step_advances (hlimits : SmallLimits topic options) (hready : Ready topic options actor)
    (hwithin : actor.cut.Within (limitsOf topic options)) (event : BatchActor.Event)
    (hsmall : ∀ msg, event = .send (.publish msg) → Small msg) :
    Advances topic options (Undisturbed actor event) actor (actor.step event) := by
  have hshared := hready.shared
  by_cases hended : actor.phase = .ended
  · rw [step.eq_def, if_pos hended]
    exact .of_eq hready rfl rfl rfl rfl
  · rw [step.eq_def, if_neg hended]
    cases event with
    | send command =>
        simp only
        split_ifs
        · exact .of_eq hready rfl rfl rfl rfl
        · exact .of_eq ⟨hshared.send fun msg h => hsmall msg (by rw [h]), hready.pendingMsgs⟩
            rfl rfl rfl rfl
    | close => exact .of_eq ⟨⟨hshared.exact, hshared.rx⟩, hready.pendingMsgs⟩ rfl rfl rfl rfl
    | complete index response =>
        obtain ⟨hready', hcut, hreceived⟩ := hshared.complete index response
        exact .of_eq ⟨hready', hready.pendingMsgs⟩ hcut rfl hreceived rfl
    | join index => exact join_advances hlimits hready hwithin index
    | timer =>
        simp only
        split_ifs with htimer
        · simp only [Bool.and_eq_true, decide_eq_true_eq] at htimer
          refine .of_eq ⟨⟨hshared.exact, hshared.rx⟩, hready.pendingMsgs⟩ rfl rfl rfl ?_
          rw [htimer.1.1]
          rfl
        · exact .of_eq hready rfl rfl rfl rfl
    | recv =>
        simp only
        by_cases hphase : actor.phase = .selecting
        · rw [if_pos hphase]
          split
          · rename_i command shared hrecv
            split_ifs with hpaused
            · exact receivePaused_advances hready hpaused hrecv
            · exact receive_advances hlimits hready hwithin hphase hrecv
          · exact .of_eq hready rfl rfl rfl rfl
        · rw [if_neg hphase]
          exact .of_eq hready rfl rfl rfl rfl

end SequentialBatchActor

end GoogleCloudRust.Publisher
