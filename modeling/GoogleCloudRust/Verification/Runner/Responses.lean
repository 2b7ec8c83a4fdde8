import GoogleCloudRust.Library.Interleaving
import GoogleCloudRust.Model.Runner
import Mathlib.Data.List.Nodup

/-! # The responses of an `AppendRows` stream

Every response channel is in one place at a time, and the channels are registered in the order
in which the requests go out. -/

namespace GoogleCloudRust.BigQuery.Runner

variable {Descriptor Error Response : Type}

/-! ## What a step can do -/

inductive Stepped [DecidableEq Descriptor] (version : String)
    (runner : Runner Descriptor Error Response) : Runner Descriptor Error Response → Prop
  | idle : Stepped version runner runner
  | sent (req : AppendRowsRequest Descriptor) :
      Stepped version runner
        { runner with
          writers := runner.writers ++ [⟨req, false⟩]
          reqRx := if runner.receiverOpen then runner.reqRx ++ [⟨req, runner.writers.length⟩]
            else runner.reqRx }
  | abandoned (respTx : ℕ) : Stepped version runner (runner.abandon respTx)
  | released : Stepped version runner { runner with released := true }
  | unused (hstream : runner.streamTask = .waiting) (hreqRx : runner.reqRx = []) :
      Stepped version runner { runner with streamTask := .finished }
  | started (initialReq : WriteRequest Descriptor) (reqRx : List (WriteRequest Descriptor))
      (hstream : runner.streamTask = .waiting) (hreqRx : runner.reqRx = initialReq :: reqRx)
      (req : AppendRowsRequest Descriptor)
      (hreq : req = { initialReq.req with traceId := "rust-writer:" ++ version }) :
      Stepped version runner
        { runner with
          reqRx
          streamTask := .opening initialReq.respTx (SendOptimizer.new req)
          wire := [⟨req, initialReq.respTx⟩] }
  | refused (respTx : ℕ) (optimizer : SendOptimizer Descriptor) (e : Error)
      (hstream : runner.streamTask = .opening respTx optimizer) :
      Stepped version runner
        { runner.answer respTx (.error (.rpc e)) with streamTask := .finished, reqRx := [] }
  | opened (respTx : ℕ) (optimizer : SendOptimizer Descriptor)
      (hstream : runner.streamTask = .opening respTx optimizer) :
      Stepped version runner
        { runner with
          streamTask := .reading false
          writeTask := .receiving optimizer
          pendingResp := [respTx] }
  | responded (response : Response) (hstream : runner.streamTask = .reading false)
      (hlt : runner.responses.length < runner.wire.length) :
      Stepped version runner
        ({ runner with responses := runner.responses ++ [response] }.processResponse (.ok response))
  | failed (e : Error) (hstream : runner.streamTask = .reading false) :
      Stepped version runner
        ({ runner with streamTask := .reading true }.processResponse (.error (.rpc e)))
  | closed (failed : Bool) (hstream : runner.streamTask = .reading failed) :
      Stepped version runner { runner with streamTask := .finished, pendingResp := [] }
  | received (optimizer : SendOptimizer Descriptor) (r : WriteRequest Descriptor)
      (reqRx : List (WriteRequest Descriptor)) (hwrite : runner.writeTask = .receiving optimizer)
      (hreqRx : runner.reqRx = r :: reqRx) :
      Stepped version runner
        { runner with
          reqRx
          writeTask := .registering (optimizer.optimize r.req).1
            { r with req := (optimizer.optimize r.req).2 } }
  | registered (optimizer : SendOptimizer Descriptor) (r : WriteRequest Descriptor)
      (failed : Bool) (hwrite : runner.writeTask = .registering optimizer r)
      (hstream : runner.streamTask = .reading failed) :
      Stepped version runner
        { runner with
          pendingResp := runner.pendingResp ++ [r.respTx]
          writeTask := .sending optimizer r }
  | forwarded (optimizer : SendOptimizer Descriptor) (r : WriteRequest Descriptor)
      (hwrite : runner.writeTask = .sending optimizer r) :
      Stepped version runner
        { runner with wire := runner.wire ++ [r], writeTask := .receiving optimizer }
  | ended (hwrite : runner.writeTask ≠ .unspawned) : Stepped version runner runner.endWrite

theorem stepped_step [DecidableEq Descriptor] (version : String)
    (runner : Runner Descriptor Error Response) (event : Event Descriptor Error Response) :
    Stepped version runner (step version runner event) := by
  cases event with
  | send req =>
    rw [step, send]
    split
    · exact .idle
    · exact .sent req
  | abandon respTx => exact .abandoned respTx
  | release => exact .released
  | start =>
    rw [step]
    fun_cases start with
    | case1 hreqRx hstream => exact .unused hstream hreqRx
    | case2 => exact .idle
    | case3 initialReq reqRx hreqRx hstream => exact .started initialReq reqRx hstream hreqRx _ rfl
    | case4 => exact .idle
  | opened outcome =>
    rw [step]
    fun_cases Runner.opened with
    | case1 respTx optimizer e hstream => exact .refused respTx optimizer e hstream
    | case2 respTx optimizer hstream => exact .opened respTx optimizer hstream
    | case3 => exact .idle
  | message resp =>
    rw [step]
    fun_cases message with
    | case1 response hstream hlt => exact .responded response hstream hlt
    | case2 => exact .idle
    | case3 e hstream => exact .failed e hstream
    | case4 => exact .idle
  | close =>
    rw [step]
    fun_cases close with
    | case1 failed hstream => exact .closed failed hstream
    | case2 => exact .idle
  | pollWrite dropped forwarding =>
    rw [step]
    fun_cases pollWrite
    case case4 optimizer hwrite _ r reqRx hreqRx => exact .received optimizer r reqRx hwrite hreqRx
    case case5 optimizer r hwrite failed hstream =>
      exact .registered optimizer r failed hwrite hstream
    case case8 optimizer r hwrite _ => exact .forwarded optimizer r hwrite
    -- What is left waits or ends the write task.
    all_goals first | exact .idle | exact .ended (by simp_all)

/-! ## Where a channel is -/

/-- How often the sending half of a channel occurs, used or not. -/
def places (runner : Runner Descriptor Error Response) (respTx : ℕ) : ℕ :=
  (runner.answers.map Answer.respTx).count respTx + runner.held.count respTx

/-- What is counted occurs at most once for every writer, and for nobody else. -/
def Once (counted : Runner Descriptor Error Response → ℕ → ℕ)
    (runner : Runner Descriptor Error Response) : Prop :=
  ∀ respTx, counted runner respTx ≤ if respTx < runner.writers.length then 1 else 0

/-- Only a new writer adds to what is counted, and then what is its own. -/
def AddsOwn (counted : Runner Descriptor Error Response → ℕ → ℕ)
    (runner runner' : Runner Descriptor Error Response) : Prop :=
  (runner'.writers.length = runner.writers.length ∧
    ∀ respTx, counted runner' respTx ≤ counted runner respTx) ∨
  (runner'.writers.length = runner.writers.length + 1 ∧
    ∀ respTx, counted runner' respTx ≤
      counted runner respTx + [runner.writers.length].count respTx)

variable {runner runner' : Runner Descriptor Error Response}

theorem Once.addsOwn {counted : Runner Descriptor Error Response → ℕ → ℕ}
    (h : Once counted runner) (hadds : AddsOwn counted runner runner') : Once counted runner' := by
  intro respTx
  have hle := h respTx
  cases hadds with
  | inl hadds =>
    have hle' := hadds.2 respTx
    rw [hadds.1]
    omega
  | inr hadds =>
    have hle' := hadds.2 respTx
    rw [hadds.1]
    by_cases heq : respTx = runner.writers.length
    · simp_all
    · have hcount : [runner.writers.length].count respTx = 0 := by simp [Ne.symm heq]
      split at hle <;> split <;> omega

theorem places_processResponse (resp : AppendResult Error Response) (respTx : ℕ) :
    (runner.processResponse resp).places respTx = runner.places respTx := by
  fun_cases processResponse with
  | case1 => rfl
  | case2 respTx' pendingResp hpending =>
    simp only [places, answer, held, hpending, List.map_append, List.map_cons, List.map_nil,
      List.count_append, List.count_cons, List.count_nil]
    omega

theorem processResponse_of_cons {respTx : ℕ} {pendingResp : List ℕ}
    (h : runner.pendingResp = respTx :: pendingResp) (resp : AppendResult Error Response) :
    runner.processResponse resp =
      { runner with
        pendingResp
        answers := runner.answers ++
          [⟨respTx, resp, !(runner.writers[respTx]?.any Writer.abandoned)⟩] } := by
  simp [processResponse, h, answer]

theorem writers_processResponse (resp : AppendResult Error Response) :
    (runner.processResponse resp).writers = runner.writers := by
  fun_cases processResponse <;> rfl

variable [DecidableEq Descriptor] {version : String}

theorem Stepped.places (h : Stepped version runner runner') :
    AddsOwn places runner runner' := by
  cases h with
  | idle => exact .inl ⟨rfl, fun _ => Nat.le_refl _⟩
  | sent req =>
    refine .inr ⟨by simp, fun respTx => ?_⟩
    simp only [Runner.places, held, List.count_append]
    split
    · simp only [List.map_append, List.map_cons, List.map_nil, List.count_append]
      omega
    · omega
  | abandoned respTx' => exact .inl ⟨by simp [abandon], fun _ => Nat.le_refl _⟩
  | released => exact .inl ⟨rfl, fun _ => Nat.le_refl _⟩
  | unused hstream hreqRx =>
    refine .inl ⟨rfl, fun respTx => ?_⟩
    simp [Runner.places, held, hstream, StreamTask.held]
  | started initialReq reqRx hstream hreqRx =>
    refine .inl ⟨rfl, fun respTx => ?_⟩
    simp only [Runner.places, held, hstream, hreqRx, StreamTask.held, List.map_cons,
      List.count_append, List.count_cons, List.count_nil]
    omega
  | refused respTx' optimizer e hstream =>
    refine .inl ⟨rfl, fun respTx => ?_⟩
    simp only [Runner.places, held, answer, hstream, StreamTask.held, List.map_append,
      List.map_cons, List.map_nil, List.count_append, List.count_nil]
    omega
  | opened respTx' optimizer hstream =>
    refine .inl ⟨rfl, fun respTx => ?_⟩
    simp only [Runner.places, held, hstream, StreamTask.held, WriteTask.held, List.count_append,
      List.count_nil]
    omega
  | responded response hstream _ =>
    refine .inl ⟨by rw [writers_processResponse], fun respTx => ?_⟩
    rw [places_processResponse]
    exact Nat.le_refl _
  | failed e hstream =>
    refine .inl ⟨by rw [writers_processResponse], fun respTx => ?_⟩
    rw [places_processResponse]
    simp [Runner.places, held, hstream, StreamTask.held]
  | closed failed hstream =>
    refine .inl ⟨rfl, fun respTx => ?_⟩
    simp only [Runner.places, held, hstream, StreamTask.held, List.count_append, List.count_nil]
    omega
  | received optimizer r reqRx hwrite hreqRx =>
    refine .inl ⟨rfl, fun respTx => ?_⟩
    simp only [Runner.places, held, hwrite, hreqRx, WriteTask.held, List.map_cons,
      List.count_append, List.count_cons, List.count_nil]
    omega
  | registered optimizer r failed hwrite hstream =>
    refine .inl ⟨rfl, fun respTx => ?_⟩
    simp only [Runner.places, held, hwrite, WriteTask.held, List.count_append, List.count_nil]
    omega
  | forwarded optimizer r hwrite =>
    refine .inl ⟨rfl, fun respTx => ?_⟩
    simp [Runner.places, held, hwrite, WriteTask.held]
  | ended =>
    refine .inl ⟨rfl, fun respTx => ?_⟩
    simp only [Runner.places, held, endWrite, WriteTask.held, List.map_nil, List.count_append,
      List.count_nil]
    omega

/-! ## The order of the channels -/

/-- The channels in the order in which they were registered with the read task. -/
def registered (runner : Runner Descriptor Error Response) : List ℕ :=
  runner.answers.map Answer.respTx ++ runner.pendingResp

/-- The requests on the stream are those whose channels are registered, in the same order. The
write task registers a channel before it sends the request, and may fail to send it. -/
def InOrder (runner : Runner Descriptor Error Response) : Prop :=
  match runner.writeTask with
  | .unspawned => False
  | .receiving _ | .registering _ _ => runner.registered = runner.wire.map WriteRequest.respTx
  | .sending _ r => runner.registered = runner.wire.map WriteRequest.respTx ++ [r.respTx]
  | .ended => runner.wire.map WriteRequest.respTx <+: runner.registered

/-- What holds while the stream task is where it is. -/
def InPhase (runner : Runner Descriptor Error Response) : Prop :=
  match runner.streamTask with
  | .waiting =>
    runner.wire = [] ∧ runner.responses = [] ∧ runner.answers = [] ∧ runner.pendingResp = [] ∧
      runner.writeTask = .unspawned
  | .opening respTx _ =>
    runner.wire.map WriteRequest.respTx = [respTx] ∧ runner.responses = [] ∧
      runner.answers = [] ∧ runner.pendingResp = [] ∧ runner.writeTask = .unspawned
  | .reading failed =>
    runner.InOrder ∧ (failed = false → runner.answers.length = runner.responses.length)
  | .finished => runner.pendingResp = []

/-- The answers are the responses, each for the request at its place, and errors. -/
structure Aligned (runner : Runner Descriptor Error Response) : Prop where
  inPhase : runner.InPhase
  answer_of_response : ∀ (k : ℕ) response, runner.responses[k]? = some response →
    ∃ sent received, runner.wire[k]? = some sent ∧
      runner.answers[k]? = some ⟨sent.respTx, .ok response, received⟩
  response_of_answer : ∀ (k : ℕ) answer response, runner.answers[k]? = some answer →
    answer.result = .ok response → runner.responses[k]? = some response

omit [DecidableEq Descriptor] in
theorem InOrder.wire_prefix (h : InOrder runner) :
    runner.wire.map WriteRequest.respTx <+: runner.registered := by
  unfold InOrder at h
  split at h
  · exact h.elim
  · exact h ▸ List.prefix_rfl
  · exact h ▸ List.prefix_rfl
  · exact h ▸ List.prefix_append _ _
  · exact h

omit [DecidableEq Descriptor] in
theorem aligned_new : Aligned (new : Runner Descriptor Error Response) where
  inPhase := by simp [InPhase, new]
  answer_of_response k response h := by simp [new] at h
  response_of_answer k answer response h := by simp [new] at h

section Answering

omit [DecidableEq Descriptor]

theorem inOrder_of_eq (h : InOrder runner) (hwrite : runner'.writeTask = runner.writeTask)
    (hregistered : runner'.registered = runner.registered) (hwire : runner'.wire = runner.wire) :
    InOrder runner' := by
  unfold InOrder at h ⊢
  rw [hwrite, hregistered, hwire]
  exact h

/-- While the read task keeps up, the channel of the next request on the stream is the first
pending one. -/
theorem InOrder.pendingResp_eq (h : InOrder runner)
    (hlength : runner.answers.length = runner.responses.length)
    (hlt : runner.responses.length < runner.wire.length) :
    ∃ sent pendingResp, runner.wire[runner.answers.length]? = some sent ∧
      runner.pendingResp = sent.respTx :: pendingResp := by
  have hlt' : runner.answers.length < runner.wire.length := by omega
  refine ⟨runner.wire[runner.answers.length], ?_⟩
  have hat := List.prefix_iff_getElem?.mp h.wire_prefix runner.answers.length (by simpa using hlt')
  rw [registered, List.getElem?_append_right (by simp), List.length_map, Nat.sub_self,
    List.getElem_map] at hat
  cases hpending : runner.pendingResp with
  | nil => simp [hpending] at hat
  | cons respTx pendingResp =>
    rw [hpending, List.getElem?_cons_zero, Option.some.injEq] at hat
    exact ⟨pendingResp, List.getElem?_eq_getElem hlt', by rw [hat]⟩

/-- A response goes to the request at its place. -/
theorem Aligned.responded (h : Aligned runner) {response : Response}
    (hstream : runner.streamTask = .reading false)
    (hlt : runner.responses.length < runner.wire.length) :
    Aligned ({ runner with responses := runner.responses ++ [response] }.processResponse
      (.ok response)) := by
  have hphase := h.inPhase
  rw [InPhase, hstream] at hphase
  obtain ⟨horder, hlength⟩ := hphase
  replace hlength := hlength rfl
  obtain ⟨sent, pendingResp, hsent, hpending⟩ := horder.pendingResp_eq hlength hlt
  rw [processResponse_of_cons (show Runner.pendingResp
    { runner with responses := runner.responses ++ [response] } = _ from hpending)]
  refine ⟨?_, fun k response' hk => ?_, fun k answer response' hk hresult => ?_⟩
  · rw [InPhase]
    dsimp only
    rw [hstream]
    refine ⟨inOrder_of_eq horder rfl ?_ rfl, fun _ => by simpa using hlength⟩
    simp [registered, hpending]
  · obtain hk | ⟨rfl, rfl⟩ := Interleaving.getElem?_concat_cases hk
    · obtain ⟨sent', received, hwire, hanswer⟩ := h.answer_of_response k response' hk
      refine ⟨sent', received, hwire, ?_⟩
      rw [List.getElem?_append_left (List.getElem?_eq_some_iff.mp hanswer).1, hanswer]
    · rw [← hlength]
      exact ⟨sent, _, hsent, List.getElem?_concat_length⟩
  · obtain hk | ⟨rfl, rfl⟩ := Interleaving.getElem?_concat_cases hk
    · have hresponse := h.response_of_answer k answer response' hk hresult
      rw [List.getElem?_append_left (List.getElem?_eq_some_iff.mp hresponse).1, hresponse]
    · simp only [Except.ok.injEq] at hresult
      rw [hlength, List.getElem?_concat_length, hresult]

/-- What an error adds is neither a response nor an answer with one. -/
theorem Aligned.of_error (h : Aligned runner) (hphase : InPhase runner')
    (hwire : runner'.wire = runner.wire) (hresponses : runner'.responses = runner.responses)
    (hanswers : runner'.answers = runner.answers ∨ ∃ respTx e received,
      runner'.answers = runner.answers ++ [⟨respTx, .error e, received⟩]) : Aligned runner' := by
  refine ⟨hphase, fun k response hk => ?_, fun k answer response hk hresult => ?_⟩
  · rw [hresponses] at hk
    obtain ⟨sent, received, hsent, hanswer⟩ := h.answer_of_response k response hk
    refine ⟨sent, received, by rw [hwire, hsent], ?_⟩
    obtain heq | ⟨respTx, e, received', heq⟩ := hanswers
    · rw [heq, hanswer]
    · rw [heq, List.getElem?_append_left (List.getElem?_eq_some_iff.mp hanswer).1, hanswer]
  · rw [hresponses]
    obtain heq | ⟨respTx, e, received', heq⟩ := hanswers
    · exact h.response_of_answer k answer response (heq ▸ hk) hresult
    · rw [heq] at hk
      obtain hk | ⟨-, rfl⟩ := Interleaving.getElem?_concat_cases hk
      · exact h.response_of_answer k answer response hk hresult
      · cases hresult

theorem Aligned.failed (h : Aligned runner) {e : Error}
    (hstream : runner.streamTask = .reading false) :
    Aligned ({ runner with streamTask := .reading true }.processResponse (.error (.rpc e))) := by
  have hphase := h.inPhase
  rw [InPhase, hstream] at hphase
  by_cases hpending : runner.pendingResp = []
  · have hafter : Runner.processResponse { runner with streamTask := .reading true }
        (.error (.rpc e)) = { runner with streamTask := .reading true } := by
      simp [processResponse, hpending]
    rw [hafter]
    exact h.of_error ⟨hphase.1, fun hfalse => by cases hfalse⟩ rfl rfl (.inl rfl)
  · obtain ⟨respTx, pendingResp, hpending⟩ := List.exists_cons_of_ne_nil hpending
    rw [processResponse_of_cons (show Runner.pendingResp
      { runner with streamTask := .reading true } = _ from hpending)]
    refine h.of_error ⟨inOrder_of_eq hphase.1 rfl ?_ rfl, fun hfalse => by cases hfalse⟩ rfl rfl
      (.inr ⟨_, _, _, rfl⟩)
    simp [registered, hpending]

/-- A step that sends nothing on the stream and answers nobody. -/
theorem Aligned.of_quiet (h : Aligned runner) (hphase : InPhase runner')
    (hwire : runner.wire <+: runner'.wire) (hresponses : runner'.responses = runner.responses)
    (hanswers : runner'.answers = runner.answers) : Aligned runner' := by
  refine ⟨hphase, fun k response hk => ?_, fun k answer response hk hresult => ?_⟩
  · obtain ⟨sent, received, hsent, hanswer⟩ := h.answer_of_response k response (hresponses ▸ hk)
    refine ⟨sent, received, ?_, hanswers ▸ hanswer⟩
    obtain ⟨more, hmore⟩ := hwire
    rw [← hmore, List.getElem?_append_left (List.getElem?_eq_some_iff.mp hsent).1, hsent]
  · rw [hresponses]
    exact h.response_of_answer k answer response (hanswers ▸ hk) hresult

/-- A step of the write task keeps the phase when it keeps the order. -/
theorem InPhase.write (h : InPhase runner) (hwrite : runner.writeTask ≠ .unspawned)
    (hstream : runner'.streamTask = runner.streamTask)
    (horder : InOrder runner → InOrder runner')
    (hresponses : runner'.responses = runner.responses)
    (hanswers : runner'.answers = runner.answers)
    (hpending : runner.streamTask = .finished → runner'.pendingResp = runner.pendingResp) :
    InPhase runner' := by
  unfold InPhase at h ⊢
  rw [hstream]
  cases hcase : runner.streamTask with
  | waiting => exact absurd (hcase ▸ h).2.2.2.2 hwrite
  | opening respTx optimizer => exact absurd (hcase ▸ h).2.2.2.2 hwrite
  | reading failed =>
    rw [hcase] at h
    exact ⟨horder h.1, fun hfailed => by rw [hresponses, hanswers, h.2 hfailed]⟩
  | finished =>
    rw [hcase] at h
    exact (hpending hcase).trans h

end Answering

theorem Aligned.stepped (h : Aligned runner) (hstep : Stepped version runner runner') :
    Aligned runner' := by
  have hphase := h.inPhase
  cases hstep with
  | idle => exact h
  | sent req => exact h.of_quiet hphase List.prefix_rfl rfl rfl
  | abandoned respTx => exact h.of_quiet hphase List.prefix_rfl rfl rfl
  | released => exact h.of_quiet hphase List.prefix_rfl rfl rfl
  | unused hstream hreqRx =>
    rw [InPhase, hstream] at hphase
    exact h.of_quiet hphase.2.2.2.1 List.prefix_rfl rfl rfl
  | started initialReq reqRx hstream hreqRx =>
    rw [InPhase, hstream] at hphase
    obtain ⟨hwire, hphase⟩ := hphase
    refine h.of_quiet ⟨rfl, hphase⟩ ?_ rfl rfl
    rw [hwire]
    exact List.nil_prefix
  | refused respTx optimizer e hstream =>
    rw [InPhase, hstream] at hphase
    exact h.of_error hphase.2.2.2.1 rfl rfl (.inr ⟨_, _, _, rfl⟩)
  | opened respTx optimizer hstream =>
    rw [InPhase, hstream] at hphase
    obtain ⟨hwire, hresponses, hanswers, -⟩ := hphase
    refine h.of_quiet ⟨?_, fun _ => by rw [hanswers, hresponses]; rfl⟩ List.prefix_rfl rfl rfl
    simp [InOrder, registered, hanswers, hwire]
  | responded response hstream hlt => exact h.responded hstream hlt
  | failed e hstream => exact h.failed hstream
  | closed failed hstream => exact h.of_quiet rfl List.prefix_rfl rfl rfl
  | received optimizer r reqRx hwrite hreqRx =>
    refine h.of_quiet (hphase.write (by simp [hwrite]) rfl (fun horder => ?_) rfl rfl fun _ => rfl)
      List.prefix_rfl rfl rfl
    simpa [InOrder, registered, hwrite] using horder
  | registered optimizer r failed hwrite hstream =>
    refine h.of_quiet (hphase.write (by simp [hwrite]) rfl (fun horder => ?_) rfl rfl
      fun hfinished => ?_) List.prefix_rfl rfl rfl
    · simp only [InOrder, hwrite] at horder
      simp only [InOrder]
      rw [← horder]
      simp [registered]
    · simp [hstream] at hfinished
  | forwarded optimizer r hwrite =>
    refine h.of_quiet (hphase.write (by simp [hwrite]) rfl (fun horder => ?_) rfl rfl fun _ => rfl)
      (List.prefix_append _ _) rfl rfl
    simpa [InOrder, registered, hwrite] using horder
  | ended hwrite =>
    exact h.of_quiet (hphase.write hwrite rfl (fun horder => horder.wire_prefix) rfl rfl
      fun _ => rfl) List.prefix_rfl rfl rfl

/-! ## The requests on the stream -/

def WriteTask.carried : WriteTask Descriptor → List ℕ
  | .registering _ r | .sending _ r => [r.respTx]
  | _ => []

/-- How often the request of a channel is on its way or on the stream. -/
def journeys (runner : Runner Descriptor Error Response) (respTx : ℕ) : ℕ :=
  (runner.wire.map WriteRequest.respTx).count respTx +
    (runner.reqRx.map WriteRequest.respTx).count respTx + runner.writeTask.carried.count respTx

omit [DecidableEq Descriptor] in
theorem journeys_processResponse (resp : AppendResult Error Response) (respTx : ℕ) :
    (runner.processResponse resp).journeys respTx = runner.journeys respTx := by
  fun_cases processResponse <;> rfl

theorem Stepped.journeys (h : Stepped version runner runner') (hrunner : InPhase runner) :
    AddsOwn journeys runner runner' := by
  cases h with
  | idle | released => exact .inl ⟨rfl, fun _ => Nat.le_refl _⟩
  | sent req =>
    refine .inr ⟨by simp, fun respTx => ?_⟩
    simp only [Runner.journeys]
    split
    · simp only [List.map_append, List.map_cons, List.map_nil, List.count_append]
      omega
    · omega
  | abandoned respTx' => exact .inl ⟨by simp [abandon], fun _ => Nat.le_refl _⟩
  | unused hstream hreqRx => exact .inl ⟨rfl, fun _ => Nat.le_refl _⟩
  | started initialReq reqRx hstream hreqRx =>
    rw [InPhase, hstream] at hrunner
    refine .inl ⟨rfl, fun respTx => ?_⟩
    simp only [Runner.journeys, hreqRx, hrunner.1, List.map_cons, List.map_nil, List.count_cons,
      List.count_nil]
    omega
  | refused respTx' optimizer e hstream =>
    refine .inl ⟨rfl, fun respTx => ?_⟩
    simp only [Runner.journeys, answer, List.map_nil, List.count_nil]
    omega
  | opened respTx' optimizer hstream =>
    refine .inl ⟨rfl, fun respTx => ?_⟩
    simp only [Runner.journeys, WriteTask.carried, List.count_nil]
    omega
  | responded response hstream _ =>
    refine .inl ⟨by rw [writers_processResponse], fun respTx => ?_⟩
    rw [journeys_processResponse]
    exact Nat.le_refl _
  | failed e hstream =>
    refine .inl ⟨by rw [writers_processResponse], fun respTx => ?_⟩
    rw [journeys_processResponse]
    exact Nat.le_refl _
  | closed failed hstream => exact .inl ⟨rfl, fun _ => Nat.le_refl _⟩
  | received optimizer r reqRx hwrite hreqRx =>
    refine .inl ⟨rfl, fun respTx => ?_⟩
    simp only [Runner.journeys, hwrite, hreqRx, WriteTask.carried, List.map_cons, List.count_cons,
      List.count_nil]
    omega
  | registered optimizer r failed hwrite hstream =>
    refine .inl ⟨rfl, fun respTx => ?_⟩
    simp [Runner.journeys, hwrite, WriteTask.carried]
  | forwarded optimizer r hwrite =>
    refine .inl ⟨rfl, fun respTx => ?_⟩
    simp only [Runner.journeys, hwrite, WriteTask.carried, List.map_append, List.map_cons,
      List.map_nil, List.count_append, List.count_nil]
    omega
  | ended =>
    refine .inl ⟨rfl, fun respTx => ?_⟩
    simp only [Runner.journeys, endWrite, WriteTask.carried, List.map_nil, List.count_nil]
    omega

/-! ## Results stay -/

/-- Results are only added, and a result is discarded only when nobody waits for it. -/
structure KeepsResults (runner runner' : Runner Descriptor Error Response) : Prop where
  answers : runner.answers <+: runner'.answers
  abandoned : ∀ respTx : ℕ, runner.writers[respTx]?.any Writer.abandoned →
    runner'.writers[respTx]?.any Writer.abandoned
  discarded : ∀ answer ∈ runner'.answers, answer ∈ runner.answers ∨
    (answer.received = false → runner.writers[answer.respTx]?.any Writer.abandoned)

/-- A result was discarded only where the writer is gone. -/
def DiscardsAbandoned (runner : Runner Descriptor Error Response) : Prop :=
  ∀ answer ∈ runner.answers, answer.received = false →
    runner.writers[answer.respTx]?.any Writer.abandoned

omit [DecidableEq Descriptor] in
theorem DiscardsAbandoned.keepsResults (h : DiscardsAbandoned runner)
    (hkeeps : KeepsResults runner runner') : DiscardsAbandoned runner' := by
  intro answer hanswer hreceived
  cases hkeeps.discarded answer hanswer with
  | inl hmem => exact hkeeps.abandoned _ (h answer hmem hreceived)
  | inr hnew => exact hkeeps.abandoned _ (hnew hreceived)

omit [DecidableEq Descriptor] in
theorem keepsResults_of_eq (hanswers : runner'.answers = runner.answers)
    (hwriters : runner'.writers = runner.writers) : KeepsResults runner runner' :=
  ⟨hanswers ▸ List.prefix_rfl, fun _ h => hwriters ▸ h, fun _ h => .inl (hanswers ▸ h)⟩

omit [DecidableEq Descriptor] in
theorem keepsResults_answer {respTx : ℕ} {result : AppendResult Error Response}
    (hanswers : runner'.answers = (runner.answer respTx result).answers)
    (hwriters : runner'.writers = runner.writers) : KeepsResults runner runner' := by
  refine ⟨hanswers ▸ List.prefix_append _ _, fun _ h => hwriters ▸ h, fun answer hmem => ?_⟩
  rw [hanswers, Runner.answer, List.mem_append, List.mem_singleton] at hmem
  cases hmem with
  | inl hmem => exact .inl hmem
  | inr heq =>
    subst heq
    exact .inr fun hreceived => by simpa using hreceived

omit [DecidableEq Descriptor] in
theorem keepsResults_processResponse (resp : AppendResult Error Response) :
    KeepsResults runner (runner.processResponse resp) := by
  fun_cases processResponse with
  | case1 => exact keepsResults_of_eq rfl rfl
  | case2 => exact keepsResults_answer rfl rfl

omit [DecidableEq Descriptor] in
theorem KeepsResults.of_eq {before : Runner Descriptor Error Response}
    (h : KeepsResults runner runner') (hanswers : runner.answers = before.answers)
    (hwriters : runner.writers = before.writers) : KeepsResults before runner' := by
  refine ⟨hanswers ▸ h.answers, fun respTx habandoned => ?_, fun answer hmem => ?_⟩
  · exact h.abandoned respTx (hwriters ▸ habandoned)
  · rw [← hanswers, ← hwriters]
    exact h.discarded answer hmem

omit [DecidableEq Descriptor] in
theorem keepsResults_abandon (respTx : ℕ) : KeepsResults runner (runner.abandon respTx) := by
  refine ⟨List.prefix_rfl, fun respTx' h => ?_, fun answer h => .inl h⟩
  rw [abandon, List.getElem?_modify]
  cases hwriter : runner.writers[respTx']? with
  | none => simp [hwriter] at h
  | some writer => split <;> simp_all

theorem Stepped.keepsResults (h : Stepped version runner runner') :
    KeepsResults runner runner' := by
  cases h with
  | sent req =>
    refine ⟨List.prefix_rfl, fun respTx h => ?_, fun answer h => .inl h⟩
    cases hwriter : runner.writers[respTx]? with
    | none => simp [hwriter] at h
    | some writer =>
      rw [List.getElem?_append_left (List.getElem?_eq_some_iff.mp hwriter).1]
      exact h
  | abandoned respTx => exact keepsResults_abandon respTx
  | refused respTx optimizer e hstream => exact keepsResults_answer rfl rfl
  | responded response hstream hlt =>
    exact (keepsResults_processResponse (.ok response)).of_eq rfl rfl
  | failed e hstream => exact (keepsResults_processResponse (.error (.rpc e))).of_eq rfl rfl
  | _ => exact keepsResults_of_eq rfl rfl

/-! ## Runs -/

/-- Nothing is queued on a channel whose receiving half is gone. -/
def Drained (runner : Runner Descriptor Error Response) : Prop :=
  runner.receiverOpen = false → runner.reqRx = []

omit [DecidableEq Descriptor] in
theorem drained_processResponse (resp : AppendResult Error Response) (h : Drained runner) :
    Drained (runner.processResponse resp) := by
  fun_cases processResponse <;> exact h

theorem Drained.stepped (h : Drained runner) (hstep : Stepped version runner runner') :
    Drained runner' := by
  cases hstep with
  | idle | abandoned | released => exact h
  | sent req =>
    intro hopen
    have hclosed : runner.receiverOpen = false := hopen
    simp [hclosed, h hclosed]
  | unused hstream hreqRx => exact fun _ => hreqRx
  | started initialReq reqRx hstream hreqRx => exact fun hopen => by simp [receiverOpen] at hopen
  | refused | ended => exact fun _ => rfl
  | opened respTx optimizer hstream => exact fun hopen => by simp [receiverOpen] at hopen
  | responded response hstream _ =>
    apply drained_processResponse
    exact h
  | failed e hstream =>
    apply drained_processResponse
    intro hopen
    refine h ?_
    cases hwrite : runner.writeTask <;> simp_all [receiverOpen]
  | closed failed hstream =>
    intro hopen
    refine h ?_
    cases hwrite : runner.writeTask <;> simp_all [receiverOpen]
  | received | registered | forwarded =>
    intro hopen
    cases hstream : runner.streamTask <;> simp [receiverOpen, hstream] at hopen

/-- What every run of a runner keeps. -/
structure Sound (runner : Runner Descriptor Error Response) : Prop where
  aligned : runner.Aligned
  owned : Once places runner
  sentOnce : Once journeys runner
  drained : runner.Drained
  discards : runner.DiscardsAbandoned

theorem sound_run (version : String) (events : List (Event Descriptor Error Response)) :
    Sound (run version new events) := by
  refine Interleaving.foldl_invariant (fun runner event h => ?_)
    ⟨aligned_new, ?_, ?_, fun _ => rfl, fun answer hanswer => by simp [new] at hanswer⟩ events
  · have hstep := stepped_step version runner event
    exact ⟨h.aligned.stepped hstep, h.owned.addsOwn hstep.places,
      h.sentOnce.addsOwn (hstep.journeys h.aligned.inPhase), h.drained.stepped hstep,
      h.discards.keepsResults hstep.keepsResults⟩
  · intro respTx
    simp [places, held, new, StreamTask.held, WriteTask.held]
  · intro respTx
    simp [Runner.journeys, new, WriteTask.carried]

omit [DecidableEq Descriptor] in
theorem Sound.nodup_answers (h : Sound runner) : (runner.answers.map Answer.respTx).Nodup := by
  rw [List.nodup_iff_count_le_one]
  intro respTx
  have hle := h.owned respTx
  simp only [places] at hle
  split at hle <;> omega

omit [DecidableEq Descriptor] in
theorem Sound.nodup_wire (h : Sound runner) : (runner.wire.map WriteRequest.respTx).Nodup := by
  rw [List.nodup_iff_count_le_one]
  intro respTx
  have hle := h.sentOnce respTx
  simp only [journeys] at hle
  split at hle <;> omega

omit [DecidableEq Descriptor] in
/-- A writer gets no response but that to its own request. -/
theorem Sound.observe_ok (h : Sound runner) {respTx : ℕ} {response : Response}
    (hobserve : runner.observe respTx = some (.ok response)) :
    ∃ (k : ℕ) (sent : WriteRequest Descriptor), runner.wire[k]? = some sent ∧
      sent.respTx = respTx ∧ runner.responses[k]? = some response := by
  unfold observe at hobserve
  split at hobserve
  case h_1 answer hfind =>
    have hrespTx : answer.respTx = respTx := by simpa using List.find?_some hfind
    obtain ⟨k, hk⟩ := List.mem_iff_getElem?.mp (List.mem_of_find?_eq_some hfind)
    have hresponse := h.aligned.response_of_answer k answer response hk (by simpa using hobserve)
    obtain ⟨sent, received, hsent, hanswer⟩ := h.aligned.answer_of_response k response hresponse
    rw [hk, Option.some.injEq] at hanswer
    exact ⟨k, sent, hsent, by rw [← hrespTx, hanswer], hresponse⟩
  case h_2 =>
    split at hobserve <;> simp at hobserve

/-- What a writer has observed it will not observe differently. -/
theorem Stepped.observe (hstep : Stepped version runner runner') {respTx : ℕ}
    {result : AppendResult Error Response} (hwriter : respTx < runner.writers.length)
    (h : runner.observe respTx = some result) : runner'.observe respTx = some result := by
  unfold Runner.observe at h ⊢
  obtain ⟨more, hmore⟩ := hstep.keepsResults.answers
  split at h
  case h_1 answer hfind =>
    rw [← hmore, List.find?_append, hfind]
    exact h
  case h_2 hfind =>
    split at h
    case isTrue => cases h
    case isFalse hheld =>
      -- The channel is nowhere, and a step does not bring it back.
      have hplaces : runner.places respTx = 0 := by
        have hanswers : respTx ∉ runner.answers.map Answer.respTx := by
          simpa using hfind
        rw [Runner.places, List.count_eq_zero.mpr hanswers, List.count_eq_zero.mpr hheld]
      have hplaces' : runner'.places respTx = 0 := by
        cases hstep.places with
        | inl hadds => exact Nat.le_zero.mp (hplaces ▸ hadds.2 respTx)
        | inr hadds =>
          have hle := hadds.2 respTx
          have hne : runner.writers.length ≠ respTx := by omega
          simpa [hplaces, hne] using hle
      rw [Runner.places, Nat.add_eq_zero_iff, List.count_eq_zero, List.count_eq_zero] at hplaces'
      have hfind' : runner'.answers.find? (fun answer => answer.respTx = respTx) = none := by
        simpa using hplaces'.1
      rw [hfind']
      simpa [hplaces'.2] using h

/-! ## After the stream has ended -/

/-- How many steps an aborted write task takes at most. -/
def WriteTask.remaining : WriteTask Descriptor → ℕ
  | .sending _ _ => 3
  | .receiving _ => 2
  | .registering _ _ => 1
  | .unspawned | .ended => 0

def Event.isPollWrite : Event Descriptor Error Response → Bool
  | .pollWrite _ _ => true
  | _ => false

theorem Stepped.finished (hstep : Stepped version runner runner')
    (h : runner.streamTask = .finished) :
    runner'.streamTask = .finished ∧
      runner'.writeTask.remaining ≤ runner.writeTask.remaining := by
  cases hstep <;> simp_all [abandon, endWrite, WriteTask.remaining]

/-- Once the stream has ended every step of the write task brings it closer to its end. -/
theorem remaining_pollWrite (dropped : Bool) (forwarding : Forwarding)
    (h : runner.streamTask = .finished) :
    (runner.pollWrite dropped forwarding).writeTask.remaining ≤
      runner.writeTask.remaining - 1 := by
  have haborted : runner.aborted = true := by rw [aborted, h]
  fun_cases pollWrite <;> simp_all [endWrite, WriteTask.remaining]

theorem finished_run (version : String) (h : runner.streamTask = .finished)
    (after : List (Event Descriptor Error Response)) :
    (run version runner after).streamTask = .finished ∧
      (run version runner after).writeTask.remaining ≤
        runner.writeTask.remaining - after.countP Event.isPollWrite := by
  induction after generalizing runner with
  | nil => exact ⟨h, Nat.le_refl _⟩
  | cons event after ih =>
    obtain ⟨hfinished, hremaining⟩ := (stepped_step version runner event).finished h
    obtain ⟨hrun, hle⟩ := ih hfinished
    refine ⟨hrun, ?_⟩
    rw [run, List.foldl_cons]
    rw [run] at hle
    cases event with
    | pollWrite dropped forwarding =>
      have hpoll : (runner.pollWrite dropped forwarding).writeTask.remaining ≤
          runner.writeTask.remaining - 1 := remaining_pollWrite dropped forwarding h
      rw [List.countP_cons_of_pos rfl]
      rw [step] at hle ⊢
      omega
    | _ =>
      rw [List.countP_cons_of_neg (by simp [Event.isPollWrite])]
      omega

theorem observe_run {respTx : ℕ} {result : AppendResult Error Response}
    (after : List (Event Descriptor Error Response)) (hwriter : respTx < runner.writers.length)
    (h : runner.observe respTx = some result) :
    (run version runner after).observe respTx = some result := by
  induction after generalizing runner with
  | nil => exact h
  | cons event after ih =>
    have hstep := stepped_step version runner event
    refine ih ?_ (hstep.observe hwriter h)
    cases hstep.places with
    | inl hadds => exact hadds.1 ▸ hwriter
    | inr hadds => exact hadds.1 ▸ Nat.lt_succ_of_lt hwriter

omit [DecidableEq Descriptor] in
/-- Once both tasks are over, nobody holds a response channel. -/
theorem Sound.held_eq_nil (h : Sound runner) (hstream : runner.streamTask = .finished)
    (hwrite : runner.writeTask.remaining = 0) : runner.held = [] := by
  have hphase := h.aligned.inPhase
  rw [InPhase, hstream] at hphase
  have hreqRx : runner.reqRx = [] := by
    apply h.drained
    cases hcase : runner.writeTask <;> simp_all [receiverOpen, WriteTask.remaining]
  have hheld : runner.writeTask.held = [] := by
    cases hcase : runner.writeTask <;> simp_all [WriteTask.held, WriteTask.remaining]
  simp only [held, hreqRx, hstream, hheld, StreamTask.held, List.map_nil, List.nil_append]
  exact hphase

omit [DecidableEq Descriptor] in
theorem WriteTask.remaining_le (task : WriteTask Descriptor) : task.remaining ≤ 3 := by
  cases task <;> simp [remaining]

/-- Every response reaches the request at its place on the stream or is discarded for it, no
writer gets another's, every writer gets one result at most, and once the runner has finished and
its write task has been dropped whoever has no result finds its channel closed. -/
theorem responses_reach_writers (version : String)
    (events after : List (Event Descriptor Error Response)) :
    (∀ (k : ℕ) response, (run version new events).responses[k]? = some response →
      ∃ sent received, (run version new events).wire[k]? = some sent ∧
        (run version new events).answers[k]? = some ⟨sent.respTx, .ok response, received⟩ ∧
        (received = false →
          (run version new events).writers[sent.respTx]?.any Writer.abandoned)) ∧
    ((run version new events).wire.map WriteRequest.respTx).Nodup ∧
    (∀ (respTx : ℕ) response, (run version new events).observe respTx = some (.ok response) →
      ∃ (k : ℕ) (sent : WriteRequest Descriptor), (run version new events).wire[k]? = some sent ∧
        sent.respTx = respTx ∧ (run version new events).responses[k]? = some response) ∧
    ((run version new events).answers.map Answer.respTx).Nodup ∧
    (∀ (respTx : ℕ) result, respTx < (run version new events).writers.length →
      (run version new events).observe respTx = some result →
      (run version new (events ++ after)).observe respTx = some result) ∧
    ((run version new events).streamTask = .finished →
      3 ≤ after.countP Event.isPollWrite ∨
        (run version new events).writeTask.remaining = 0 →
      ∀ respTx : ℕ, respTx < (run version new (events ++ after)).writers.length →
        respTx ∉ (run version new (events ++ after)).answers.map Answer.respTx →
        (run version new (events ++ after)).observe respTx =
          some (.error .unexpectedEndOfStream)) := by
  have h := sound_run version events
  have hrun : run version new (events ++ after) = run version (run version new events) after :=
    List.foldl_append
  refine ⟨fun k response hk => ?_, h.nodup_wire, fun _ _ => h.observe_ok, h.nodup_answers,
    fun respTx result hwriter hobserve => hrun ▸ observe_run after hwriter hobserve,
    fun hfinished hpolls respTx _ hanswers => ?_⟩
  · obtain ⟨sent, received, hsent, hanswer⟩ := h.aligned.answer_of_response k response hk
    exact ⟨sent, received, hsent, hanswer, h.discards _ (List.mem_of_getElem? hanswer)⟩
  · obtain ⟨hstream, hremaining⟩ := finished_run version hfinished after
    rw [← hrun] at hstream hremaining
    have hle := (run version new events).writeTask.remaining_le
    have hheld := (sound_run version (events ++ after)).held_eq_nil hstream (by omega)
    have hfind : (run version new (events ++ after)).answers.find?
        (fun answer => answer.respTx = respTx) = none := by
      simpa using hanswers
    rw [Runner.observe, hfind]
    simp [hheld]

end GoogleCloudRust.BigQuery.Runner
