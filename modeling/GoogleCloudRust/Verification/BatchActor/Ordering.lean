import GoogleCloudRust.Verification.BatchActor.Sequential

/-! # Ordered publishing

Messages stand in one line: those that were sent, the open batch and the queue. Received
messages join the line at its end or are refused, and a failure refuses whatever has not
been sent. -/

namespace GoogleCloudRust.Publisher

/-- The messages of the batches, in the order in which they were sent. -/
def BatchActor.sent (actor : BatchActor) : List BundledMessage := actor.batches.flatten

/-- The message of an answer that says that publishing is paused. -/
def Answer.refused? (answer : Answer) : Option BundledMessage :=
  if answer.consumption = .orderingKeyPaused then some answer.message else none

def BatchActor.refused (actor : BatchActor) : List BundledMessage :=
  actor.answers.filterMap Answer.refused?

theorem refused_zipMessageIds (txs : List BundledMessage) (messageIds : List String) :
    (zipMessageIds txs messageIds).filterMap Answer.refused? = [] := by
  induction txs generalizing messageIds with
  | nil => rfl
  | cons tx txs ih =>
      cases messageIds with
      | nil => simpa [zipMessageIds, Answer.refused?] using ih []
      | cons messageId messageIds => simpa [zipMessageIds, Answer.refused?] using ih messageIds

/-- A batch that was sent is not refused. -/
theorem refused_batchResolvePublishFutures (txs : List BundledMessage) (response : Response) :
    (batchResolvePublishFutures txs response).1.filterMap Answer.refused? = [] := by
  cases response with
  | ok messageIds => exact refused_zipMessageIds txs messageIds
  | err error => simp [batchResolvePublishFutures, Answer.refused?]
  | panic => simp [batchResolvePublishFutures, Answer.refused?]

theorem refused_orderingKeyPaused (messages : List BundledMessage) :
    (messages.map fun publish => (⟨publish, .orderingKeyPaused⟩ : Answer)).filterMap
      Answer.refused? = messages := by
  induction messages with
  | nil => rfl
  | cons message messages ih => simpa [Answer.refused?] using ih

namespace SequentialBatchActor

variable {actor next moved base : SequentialBatchActor} {event : BatchActor.Event}

def line (actor : SequentialBatchActor) : List BundledMessage :=
  actor.sent ++ actor.batch.messages ++ actor.pendingMsgs

theorem Moves.line_eq (h : Moves actor moved) : moved.line = actor.line := by
  cases h with
  | gather batch hbatch => simp [line, BatchActor.sent, hbatch]
  | send batch messages pendingMsgs hne hline hbatch =>
      simp [line, BatchActor.sent, hbatch, hline]

theorem line_of_nil (hbatch : actor.batch.messages = []) :
    actor.line = actor.sent ++ actor.pendingMsgs := by
  rw [line, hbatch, List.append_nil]

/-! ## The line -/

/-- What a step does to the line and to the messages received. -/
inductive LineStep (actor next : SequentialBatchActor) : Prop
  | keep (hreceived : next.received = actor.received) (hline : next.line = actor.line)
      (hrefused : next.refused = actor.refused)
  | append (msg : BundledMessage) (hreceived : next.received = actor.received ++ [msg])
      (hline : next.line = actor.line ++ [msg]) (hrefused : next.refused = actor.refused)
  | refuse (msg : BundledMessage) (hreceived : next.received = actor.received ++ [msg])
      (hline : next.line = actor.line) (hrefused : next.refused = actor.refused ++ [msg])
  | fail (hreceived : next.received = actor.received)
      (hbefore : actor.line = actor.sent ++ actor.pendingMsgs) (hline : next.line = actor.sent)
      (hrefused : next.refused = actor.refused ++ actor.pendingMsgs)

theorem line_afterFlushAll (cause : FlushCause) :
    (actor.afterFlushAll cause).line = actor.line ∧
      (actor.afterFlushAll cause).received = actor.received ∧
      (actor.afterFlushAll cause).answers = actor.answers ∧
      (actor.afterFlushAll cause).batches = actor.batches := by
  cases cause with
  | timer => exact ⟨rfl, rfl, rfl, rfl⟩
  | flush tx => exact ⟨rfl, rfl, rfl, rfl⟩
  | close => exact ⟨rfl, rfl, rfl, rfl⟩

theorem Step.lineStep (h : Step actor event next) (hinv : SequentialInv actor) :
    LineStep actor next := by
  cases h with
  | idle => exact .keep rfl rfl rfl
  | send command hphase hclosed => exact .keep rfl rfl rfl
  | close hphase => exact .keep rfl rfl rfl
  | complete messages response hinflight =>
      refine .keep rfl rfl ?_
      simp only [BatchActor.refused, List.filterMap_append, List.append_nil,
        refused_batchResolvePublishFutures messages response]
  | beginFlush cause rx hphase hpaused hrx => exact .keep rfl rfl rfl
  | refuse msg rx hphase hpaused hrx =>
      refine .refuse msg rfl rfl ?_
      simp [BatchActor.refused, Answer.refused?]
  | signal tx rx hphase hpaused hrx => exact .keep rfl rfl rfl
  | resume rx hphase hrx => exact .keep rfl rfl rfl
  | stop hphase hpaused hrx hclosed => exact .keep rfl rfl rfl
  | queue msg rx hphase hpaused hrx hinflight =>
      exact .append msg rfl (List.append_assoc _ _ _).symm rfl
  | accept msg rx moved timer hphase hpaused hrx hinflight hmoves htimer =>
      obtain ⟨-, -, -, hreceived, hanswers, -⟩ := hmoves.frame
      refine .append msg hreceived ?_ (congrArg (List.filterMap Answer.refused?) hanswers)
      exact hmoves.line_eq.trans (List.append_assoc _ _ _).symm
  | arrange moved phase hjoined hmoves hphase hlast =>
      obtain ⟨-, -, -, hreceived, hanswers, -⟩ := hmoves.frame
      exact .keep hreceived hmoves.line_eq (congrArg (List.filterMap Answer.refused?) hanswers)
  | fail phase hfailing hphase =>
      have hbatch := hinv.batch hfailing.inflight_ne
      refine .fail rfl (line_of_nil hbatch) ?_ ?_
      · simp [line, BatchActor.sent, hbatch]
      · simp only [BatchActor.refused, List.filterMap_append, refused_orderingKeyPaused]
  | finish cause paused hphase hpaused =>
      obtain ⟨hline, hreceived, hanswers, -⟩ :=
        @line_afterFlushAll { actor with inflight := [], paused := paused } cause
      exact .keep hreceived hline (congrArg (List.filterMap Answer.refused?) hanswers)

/-- What was received is in line or refused, and the line keeps the order. -/
structure InLine (actor : SequentialBatchActor) : Prop where
  sublist : actor.line.Sublist actor.received
  perm : (actor.line ++ actor.refused).Perm actor.received

theorem InLine.of_lineStep (hline : InLine actor) (h : LineStep actor next) : InLine next := by
  obtain ⟨hsublist, hperm⟩ := hline
  cases h with
  | keep hreceived hline hrefused =>
      constructor
      · rw [hreceived, hline]
        exact hsublist
      · rw [hreceived, hline, hrefused]
        exact hperm
  | append msg hreceived hline hrefused =>
      constructor
      · rw [hreceived, hline]
        exact hsublist.append (List.Sublist.refl [msg])
      · rw [hreceived, hline, hrefused, List.append_assoc]
        refine (List.perm_append_comm.append_left actor.line).trans ?_
        rw [← List.append_assoc]
        exact hperm.append_right [msg]
  | refuse msg hreceived hline hrefused =>
      constructor
      · rw [hreceived, hline]
        exact hsublist.trans (List.sublist_append_left _ _)
      · rw [hreceived, hline, hrefused, ← List.append_assoc]
        exact hperm.append_right [msg]
  | fail hreceived hbefore hline hrefused =>
      rw [hbefore] at hsublist hperm
      constructor
      · rw [hreceived, hline]
        exact (List.sublist_append_left _ _).trans hsublist
      · rw [hreceived, hline, hrefused]
        refine (List.perm_append_comm.append_left actor.sent).trans ?_
        rw [← List.append_assoc]
        exact hperm

/-! ## After a failure -/

/-- A batch has failed and publishing has not been resumed. -/
def Halted (actor : SequentialBatchActor) : Prop := actor.paused = true ∨ Failing actor

theorem Joined.not_failing (h : Joined actor) : ¬Failing actor := by
  rintro ⟨messages, outcome, hinflight, hne⟩
  obtain hnone | ⟨joined, hok⟩ := h
  · simp [hnone] at hinflight
  · simp only [hok, List.cons.injEq, Task.mk.injEq, Option.some.injEq, and_true] at hinflight
    exact hne hinflight.2.symm

theorem Step.resumes_le (h : Step actor event next) : actor.resumes ≤ next.resumes := by
  cases h with
  | resume rx hphase hrx => exact Nat.le_succ actor.resumes
  | accept msg rx moved timer hphase hpaused hrx hinflight hmoves htimer =>
      obtain ⟨-, -, -, -, -, -, -, hresumes, -⟩ := hmoves.frame
      exact hresumes.ge
  | arrange moved phase hjoined hmoves hphase hlast =>
      obtain ⟨-, -, -, -, -, -, -, hresumes, -⟩ := hmoves.frame
      exact hresumes.ge
  | finish cause paused hphase hpaused =>
      cases cause with
      | timer => exact Nat.le_refl actor.resumes
      | flush tx => exact Nat.le_refl actor.resumes
      | close => exact Nat.le_refl actor.resumes
  | _ => exact Nat.le_refl actor.resumes

/-- Nothing is sent, and what is received is refused at once or waits to be refused. -/
structure Refuses (actor next : SequentialBatchActor) (new : List BundledMessage) : Prop where
  halted : Halted next
  batches : next.batches = actor.batches
  received : next.received = actor.received ++ new
  refused : next.refused ++ next.pendingMsgs = actor.refused ++ actor.pendingMsgs ++ new

theorem Refuses.refl (h : Halted actor) : Refuses actor actor [] :=
  ⟨h, rfl, (List.append_nil _).symm, (List.append_nil _).symm⟩

theorem Refuses.trans {new later : List BundledMessage} (h : Refuses actor moved new)
    (h' : Refuses moved next later) : Refuses actor next (new ++ later) where
  halted := h'.halted
  batches := h'.batches.trans h.batches
  received := by rw [h'.received, h.received, List.append_assoc]
  refused := by rw [h'.refused, h.refused, List.append_assoc]

/-- The batch fails, or its failure is found. -/
theorem Step.refuses (h : Step actor event next) (hinv : SequentialInv actor)
    (hhalted : Halted actor) (hresumes : next.resumes = actor.resumes) :
    ∃ new, Refuses actor next new := by
  cases h with
  | idle => exact ⟨[], .refl hhalted⟩
  | send command hphase hclosed =>
      exact ⟨[], hhalted, rfl, (List.append_nil _).symm, (List.append_nil _).symm⟩
  | close hphase =>
      exact ⟨[], hhalted, rfl, (List.append_nil _).symm, (List.append_nil _).symm⟩
  | complete messages response hinflight =>
      -- A batch that is still on its way has not failed.
      obtain hpaused | ⟨failed, outcome, hfailed, -⟩ := hhalted
      · simp [(hinv.paused hpaused).2.2] at hinflight
      · simp [hfailed] at hinflight
  | beginFlush cause rx hphase hpaused hrx =>
      exact ⟨[], hhalted, rfl, (List.append_nil _).symm, (List.append_nil _).symm⟩
  | refuse msg rx hphase hpaused hrx =>
      refine ⟨[msg], hhalted, rfl, rfl, ?_⟩
      simp [BatchActor.refused, Answer.refused?, (hinv.paused hpaused).1]
  | signal tx rx hphase hpaused hrx =>
      exact ⟨[], hhalted, rfl, (List.append_nil _).symm, (List.append_nil _).symm⟩
  | resume rx hphase hrx => exact absurd hresumes (Nat.succ_ne_self actor.resumes)
  | stop hphase hpaused hrx hclosed =>
      exact ⟨[], hhalted, rfl, (List.append_nil _).symm, (List.append_nil _).symm⟩
  | queue msg rx hphase hpaused hrx hinflight =>
      exact ⟨[msg], hhalted, rfl, rfl, (List.append_assoc _ _ _).symm⟩
  | accept msg rx moved timer hphase hpaused hrx hinflight hmoves htimer =>
      obtain hpaused' | hfailing := hhalted
      · rw [hpaused] at hpaused'
        cases hpaused'
      · exact absurd hinflight hfailing.inflight_ne
  | arrange moved phase hjoined hmoves hphase hlast =>
      have hpaused : actor.paused = true := hhalted.resolve_right hjoined.not_failing
      obtain ⟨hpending, hbatch, -⟩ := hinv.paused hpaused
      obtain ⟨hpending', -, -, hbatches⟩ := hmoves.eq_of_nil rfl hpending hbatch
      obtain ⟨-, -, -, hreceived, hanswers, -, hpaused', -⟩ := hmoves.frame
      refine ⟨[], .inl (hpaused'.trans hpaused), hbatches, by simpa using hreceived, ?_⟩
      simp [BatchActor.refused, hanswers, hpending, hpending']
  | fail phase hfailing hphase =>
      refine ⟨[], .inl rfl, rfl, (List.append_nil _).symm, ?_⟩
      simp only [BatchActor.refused, List.filterMap_append, refused_orderingKeyPaused,
        List.append_nil]
  | finish cause paused hphase hpaused =>
      have hhalted' : paused = true := by
        obtain ⟨hjoined, rfl⟩ | ⟨-, hpaused⟩ := hpaused
        · exact hhalted.resolve_right hjoined.not_failing
        · exact hpaused
      refine ⟨[], ?_⟩
      cases cause with
      | timer => exact ⟨.inl hhalted', rfl, (List.append_nil _).symm, (List.append_nil _).symm⟩
      | flush tx => exact ⟨.inl hhalted', rfl, (List.append_nil _).symm, (List.append_nil _).symm⟩
      | close => exact ⟨.inl hhalted', rfl, (List.append_nil _).symm, (List.append_nil _).symm⟩

theorem resumes_le_run (hinv : SequentialInv actor) (events : List BatchActor.Event) :
    actor.resumes ≤ (actor.run events).resumes :=
  Interleaving.foldl_monotone SequentialBatchActor.resumes (fun _ event h => h.step event)
    (fun _ event h => (step_cases h event).resumes_le) hinv events

theorem run_refuses (hinv : SequentialInv actor) (hhalted : Halted actor)
    (events : List BatchActor.Event) (hresumes : (actor.run events).resumes = actor.resumes) :
    ∃ new, Refuses actor (actor.run events) new := by
  induction events generalizing actor with
  | nil => exact ⟨[], .refl hhalted⟩
  | cons event events ih =>
      have hstep := step_cases hinv event
      -- No step on the way may resume either.
      have hafter := resumes_le_run (hinv.step event) events
      have hsame : (actor.step event).resumes = actor.resumes :=
        Nat.le_antisymm (hafter.trans hresumes.le) hstep.resumes_le
      obtain ⟨new, hfirst⟩ := hstep.refuses hinv hhalted hsame
      obtain ⟨later, hrest⟩ := ih (hinv.step event) hfirst.halted (hresumes.trans hsame.symm)
      exact ⟨new ++ later, hfirst.trans hrest⟩

/-- The join that finds the failure pauses the actor. -/
theorem join_paused (hinv : SequentialInv actor) (hfailing : Failing actor) :
    (actor.step (.join 0)).paused = true := by
  have hpaused := hfailing.not_paused hinv
  obtain ⟨messages, outcome, hinflight, hne⟩ := hfailing
  have hended : actor.phase ≠ .ended := by
    intro hended
    simp [(hinv.ended hended).2.2.2.2] at hinflight
  have hjoin : actor.joinNext 0 = some (outcome, { actor.toBatchActor with inflight := [] }) := by
    simp [BatchActor.joinNext, hinflight]
  rw [step.eq_def, if_neg hended]
  simp only [join]
  cases hphase : actor.phase with
  | ended => exact absurd hphase hended
  | selecting =>
      simp only [hpaused, Bool.false_eq_true, if_false, hjoin]
      rw [handleInflightJoin_of_ne hne, moveToBatchAndFlush_of_nil rfl rfl]
      rfl
  | flushing stage cause =>
      simp only [hinflight, List.isEmpty_cons, Bool.false_eq_true, if_false, hjoin]
      rw [handleInflightJoin_of_ne hne]
      cases stage with
      | first => rfl
      | loop => rfl
      | last =>
          cases cause with
          | timer => rfl
          | flush tx => rfl
          | close => rfl

/-! ## What was received before is never sent -/

theorem Step.batches_isPrefixOf (h : Step actor event next) : actor.batches <+: next.batches := by
  cases h with
  | accept msg rx moved timer hphase hpaused hrx hinflight hmoves htimer =>
      cases hmoves with
      | gather batch hbatch => exact List.prefix_rfl
      | send batch messages pendingMsgs hne hline hbatch => exact List.prefix_append _ _
  | arrange moved phase hjoined hmoves hphase hlast =>
      cases hmoves with
      | gather batch hbatch => exact List.prefix_rfl
      | send batch messages pendingMsgs hne hline hbatch => exact List.prefix_append _ _
  | finish cause paused hphase hpaused =>
      exact ⟨[], by simp [(line_afterFlushAll cause).2.2.2]⟩
  | _ => exact List.prefix_rfl

theorem sent_isPrefixOf (h : actor.batches <+: next.batches) : actor.sent <+: next.sent := by
  obtain ⟨later, hlater⟩ := h
  exact ⟨later.flatten, by rw [BatchActor.sent, BatchActor.sent, ← hlater, List.flatten_append]⟩

/-- A failure that is not known yet stays, or is found. -/
theorem Step.failing (h : Step actor event next) (hinv : SequentialInv actor)
    (hfailing : Failing actor) :
    (Failing next ∧ next.batches = actor.batches) ∨ next.line = actor.sent := by
  have hbatch := hinv.batch hfailing.inflight_ne
  cases h with
  | complete messages response hinflight =>
      obtain ⟨failed, outcome, hfailed, -⟩ := hfailing
      simp [hfailed] at hinflight
  | accept msg rx moved timer hphase hpaused hrx hinflight hmoves htimer =>
      exact absurd hinflight hfailing.inflight_ne
  | arrange moved phase hjoined hmoves hphase hlast => exact absurd hfailing hjoined.not_failing
  | fail phase hfailing hphase => exact .inr (by simp [line, BatchActor.sent, hbatch])
  | finish cause paused hphase hpaused =>
      rw [(line_afterFlushAll cause).1]
      refine .inr ?_
      simp [line, BatchActor.sent, hbatch, (hinv.last cause hphase).1]
  | _ => exact .inl ⟨hfailing, rfl⟩

/-- Since `base`, in which a batch had failed, only later messages have joined the line. -/
structure Since (base actor : SequentialBatchActor) (later : List BundledMessage) : Prop where
  received : actor.received = base.received ++ later
  sent : base.sent <+: actor.sent
  line : (Failing actor ∧ actor.batches = base.batches) ∨
    ∃ rest, actor.line = base.sent ++ rest ∧ rest.Sublist later

theorem Since.refl (hinv : SequentialInv base) (h : Halted base) : Since base base [] := by
  refine ⟨(List.append_nil _).symm, List.prefix_rfl, ?_⟩
  obtain hpaused | hfailing := h
  · obtain ⟨hpending, hbatch, -⟩ := hinv.paused hpaused
    refine .inr ⟨[], ?_, List.Sublist.refl []⟩
    rw [line_of_nil hbatch, hpending]
  · exact .inl ⟨hfailing, rfl⟩

/-- The messages that are sent next were received after `base`. -/
theorem Since.sublist {later : List BundledMessage} (h : Since base actor later) :
    ∃ new, actor.sent = base.sent ++ new ∧ new.Sublist later := by
  obtain ⟨new, hnew⟩ := h.sent
  refine ⟨new, hnew.symm, ?_⟩
  obtain ⟨-, hbatches⟩ | ⟨rest, hline, hrest⟩ := h.line
  · have hsame : actor.sent = base.sent := by rw [BatchActor.sent, hbatches, BatchActor.sent]
    rw [hsame] at hnew
    obtain rfl := List.append_right_eq_self.mp hnew
    exact List.nil_sublist later
  · rw [SequentialBatchActor.line, ← hnew, List.append_assoc, List.append_assoc] at hline
    rw [← List.append_cancel_left hline] at hrest
    exact (List.sublist_append_left _ _).trans hrest

theorem Since.step {later : List BundledMessage} (h : Since base actor later)
    (hinv : SequentialInv actor) (hstep : Step actor event next) :
    ∃ later, Since base next later := by
  have hsent := h.sent.trans (sent_isPrefixOf hstep.batches_isPrefixOf)
  obtain ⟨new, hnew, hsublist⟩ := h.sublist
  -- The line is cut off at what has been sent.
  have hcut : next.line = actor.sent → ∃ rest, next.line = base.sent ++ rest ∧ rest.Sublist later :=
    fun hline => ⟨new, hline.trans hnew, hsublist⟩
  have hline : ∀ received, next.received = base.received ++ (later ++ received) →
      (∀ rest, actor.line = base.sent ++ rest → rest.Sublist later →
        ∃ rest', next.line = base.sent ++ rest' ∧ rest'.Sublist (later ++ received)) →
      ∃ later, Since base next later := by
    intro received hreceived hrest
    refine ⟨later ++ received, hreceived, hsent, ?_⟩
    obtain ⟨hfailing, hbatches⟩ | ⟨rest, hline, hsub⟩ := h.line
    · refine (hstep.failing hinv hfailing).imp (fun ⟨hnext, hsame⟩ => ⟨hnext, hsame.trans hbatches⟩)
        fun hnext => ?_
      obtain ⟨rest, hrest, hsub⟩ := hcut hnext
      exact ⟨rest, hrest, hsub.trans (List.sublist_append_left _ _)⟩
    · exact .inr (hrest rest hline hsub)
  cases hstep.lineStep hinv with
  | keep hreceived hkept hrefused =>
      refine hline [] (by rw [hreceived, h.received, List.append_nil]) fun rest hrest hsub => ?_
      exact ⟨rest, hkept.trans hrest, by rwa [List.append_nil]⟩
  | append msg hreceived happended hrefused =>
      have hall : next.received = base.received ++ (later ++ [msg]) := by
        rw [hreceived, h.received, List.append_assoc]
      refine hline [msg] hall fun rest hrest hsub => ?_
      exact ⟨rest ++ [msg], by rw [happended, hrest, List.append_assoc],
        hsub.append (List.Sublist.refl [msg])⟩
  | refuse msg hreceived hkept hrefused =>
      have hall : next.received = base.received ++ (later ++ [msg]) := by
        rw [hreceived, h.received, List.append_assoc]
      refine hline [msg] hall fun rest hrest hsub => ?_
      exact ⟨rest, hkept.trans hrest, hsub.trans (List.sublist_append_left _ _)⟩
  | fail hreceived hbefore hfailed hrefused =>
      refine hline [] (by rw [hreceived, h.received, List.append_nil]) fun _ _ _ => ?_
      rw [List.append_nil]
      exact hcut hfailed

theorem run_since {later : List BundledMessage} (h : Since base actor later)
    (hinv : SequentialInv actor) (events : List BatchActor.Event) :
    ∃ later, Since base (actor.run events) later := by
  induction events generalizing actor later with
  | nil => exact ⟨later, h⟩
  | cons event events ih =>
      obtain ⟨later, hstep⟩ := h.step hinv (step_cases hinv event)
      exact ih hstep (hinv.step event)

theorem run_inLine (hinv : SequentialInv actor) (h : InLine actor)
    (events : List BatchActor.Event) : InLine (actor.run events) := by
  induction events generalizing actor with
  | nil => exact h
  | cons event events ih =>
      exact ih (hinv.step event) (h.of_lineStep ((step_cases hinv event).lineStep hinv))

/-- One batch is in flight at a time, and the batches hold messages in the order in which
they were received. Once a batch has failed, nothing is sent before the next `ResumePublish`:
what was in the queue and what is received is refused, each message once, and never sent. -/
theorem run_ordered (topic : String) (batchingOptions : BatchingOptions)
    (events : List BatchActor.Event) :
    let actor := (new topic batchingOptions).run events
    actor.inflight.length ≤ 1 ∧
    actor.sent.Sublist actor.received ∧
    (actor.sent ++ actor.batch.messages ++ actor.pendingMsgs ++ actor.refused).Perm
      actor.received ∧
    actor.debugAssert = true ∧
    (actor.inflight ≠ [] → actor.batch.messages = []) ∧
    (actor.paused = true →
      actor.pendingMsgs = [] ∧ actor.batch.messages = [] ∧ actor.inflight = []) ∧
    (Failing actor → (actor.step (.join 0)).paused = true) ∧
    (Halted actor → ∀ more, (actor.run more).resumes = actor.resumes →
      Halted (actor.run more) ∧
      (actor.run more).sent = actor.sent ∧
      (∃ new, (actor.run more).received = actor.received ++ new ∧
        (actor.run more).refused ++ (actor.run more).pendingMsgs =
          actor.refused ++ actor.pendingMsgs ++ new ∧
        ((actor.run more).paused = true →
          (actor.run more).refused = actor.refused ++ actor.pendingMsgs ++ new)) ∧
      ∀ afterwards, ∃ sent later,
        ((actor.run more).run afterwards).sent = actor.sent ++ sent ∧
        ((actor.run more).run afterwards).received = (actor.run more).received ++ later ∧
        sent.Sublist later) := by
  intro actor
  have hinv : SequentialInv actor := (sequentialInv_new topic batchingOptions).run events
  have hline : InLine actor :=
    run_inLine (sequentialInv_new topic batchingOptions)
      ⟨List.Sublist.refl [], List.Perm.refl []⟩ events
  have hsent : actor.sent.Sublist actor.line := by
    rw [line, List.append_assoc]
    exact List.sublist_append_left _ _
  refine ⟨hinv.inflight, hsent.trans hline.sublist, hline.perm, hinv.debugAssert, hinv.batch,
    hinv.paused, join_paused hinv, ?_⟩
  intro hhalted more hresumes
  obtain ⟨new, hrefuses⟩ := run_refuses hinv hhalted more hresumes
  have hsame : (actor.run more).sent = actor.sent := congrArg List.flatten hrefuses.batches
  have hmore := hinv.run more
  have hpaused : (actor.run more).paused = true →
      (actor.run more).refused = actor.refused ++ actor.pendingMsgs ++ new := by
    intro hpaused
    rw [← hrefuses.refused, (hmore.paused hpaused).1, List.append_nil]
  refine ⟨hrefuses.halted, hsame, ⟨new, hrefuses.received, hrefuses.refused, hpaused⟩, ?_⟩
  intro afterwards
  obtain ⟨later, hsince⟩ := run_since (.refl hmore hrefuses.halted) hmore afterwards
  obtain ⟨sent, hsent, hsublist⟩ := hsince.sublist
  exact ⟨sent, later, by rw [hsent, hsame], hsince.received, hsublist⟩

end SequentialBatchActor

end GoogleCloudRust.Publisher
