import GoogleCloudRust.Library.Interleaving
import GoogleCloudRust.Model.BidiWriteConnector

/-! # What a stream opens with

An opening request says nothing but what the upload was opened for and what the service has
answered since: the latest generation, token and handle. -/

namespace GoogleCloudRust.BidiWriteConnector

/-! ## What the service has said -/

namespace Entry

def isResponse : Entry → Bool
  | response _ => true
  | _ => false

def generation : Entry → Option ℤ
  | response m => m.newGeneration
  | redirect error => error.generation
  | request _ _ => none

/-- Every redirect tells the token, if only that there is none. -/
def routingToken : Entry → Option (Option String)
  | redirect error => some error.routingToken
  | _ => none

def writeHandle : Entry → Option Bytes
  | response m => m.writeHandle
  | redirect error => error.writeHandle
  | request _ _ => none

/-- From now on the object exists: a response, or a redirect that tells its generation. -/
def namesObject (entry : Entry) : Bool := entry.isResponse || entry.generation.isSome

end Entry

section Latest

variable {α : Type} (value : Entry → Option α)

def latest (log : List Entry) : Option α := log.reverse.findSome? value

@[simp]
theorem latest_nil : latest value [] = none := rfl

@[simp]
theorem latest_concat (log : List Entry) (entry : Entry) :
    latest value (log ++ [entry]) = (value entry).or (latest value log) := by
  rw [latest, List.reverse_concat, List.findSome?_cons]
  cases value entry <;> rfl

@[simp]
theorem latest_singleton (entry : Entry) : latest value [entry] = value entry := by
  simpa using latest_concat value [] entry

end Latest

inductive Opening
  | create (spec : WriteObjectSpec) (initialChunk : Option Bytes)
  | takeover (spec : AppendObjectSpec)

namespace Opening

def event (params : Option CommonObjectRequestParams) : Opening → Event
  | create spec initialChunk => .connectOpenAndAppend spec params initialChunk
  | takeover spec => .connectReopen spec params

def bucket : Opening → String
  | create spec _ => (spec.resource.map Object.bucket).getD ""
  | takeover spec => spec.bucket

def routingToken (log : List Entry) : Opening → Option String
  | create _ _ => (latest Entry.routingToken log).getD none
  | takeover spec => (latest Entry.routingToken log).getD spec.routingToken

/-- The first payload, until the service has received it. -/
def initialChunk (log : List Entry) : Opening → Option Bytes
  | create _ initialChunk => if log.any Entry.isResponse then none else initialChunk
  | takeover _ => none

def firstMessage (log : List Entry) (opening : Opening) : FirstMessage :=
  match opening with
  | create spec _ =>
      if log.any Entry.namesObject then
        .appendObjectSpec
          { bucket := opening.bucket
            object := (spec.resource.map Object.name).getD ""
            generation := (latest Entry.generation log).getD 0
            ifMetagenerationMatch := spec.ifMetagenerationMatch
            ifMetagenerationNotMatch := spec.ifMetagenerationNotMatch
            routingToken := opening.routingToken log
            writeHandle := latest Entry.writeHandle (log.dropWhile fun entry => !entry.namesObject) }
      else .writeObjectSpec spec
  | takeover spec =>
      .appendObjectSpec
        { spec with
          generation := (latest Entry.generation log).getD spec.generation
          routingToken := opening.routingToken log
          writeHandle := (latest Entry.writeHandle log).or spec.writeHandle }

/-- The state that the connector should be in. -/
def state (log : List Entry) (opening : Opening) : AppendObjectSpecState :=
  match opening.firstMessage log with
  | .writeObjectSpec spec => .write spec (opening.routingToken log) (opening.initialChunk log)
  | .appendObjectSpec spec => .append spec (opening.initialChunk log)

/-- The request that opens the next stream. -/
def request (crc32c : Bytes → UInt32) (params : Option CommonObjectRequestParams)
    (log : List Entry) (opening : Opening) : BidiWriteObjectRequest where
  firstMessage := opening.firstMessage log
  data := checksummedData crc32c (opening.initialChunk log)
  commonObjectRequestParams := params
  stateLookup :=
    match opening with
    | create _ _ => log.any Entry.namesObject
    | takeover _ => true

def requestParams (enc : String → String) (log : List Entry) (opening : Opening) : String :=
  "bucket=" ++ enc opening.bucket ++
    match opening.routingToken log with
    | some token => "&routing_token=" ++ enc token
    | none => ""

end Opening

/-! ## Each answer -/

variable {opening : Opening} {log : List Entry}

theorem any_isResponse_of_any_namesObject (h : log.any Entry.namesObject = false) :
    log.any Entry.isResponse = false := by
  simp only [List.any_eq_false, Entry.namesObject, Bool.or_eq_true, not_or] at h ⊢
  exact fun entry hmem => (h entry hmem).1

theorem latest_generation_eq_none (h : log.any Entry.namesObject = false) :
    latest Entry.generation log = none := by
  simp only [List.any_eq_false, Entry.namesObject, Bool.or_eq_true, not_or] at h
  rw [latest, List.findSome?_eq_none_iff]
  intro entry hmem
  simpa using (h entry (List.mem_reverse.mp hmem)).2

theorem dropWhile_concat (entry : Entry) :
    (log ++ [entry]).dropWhile (fun entry => !entry.namesObject) =
      if log.any Entry.namesObject then
        log.dropWhile (fun entry => !entry.namesObject) ++ [entry]
      else if entry.namesObject then [entry] else [] := by
  rw [List.dropWhile_append]
  have hempty : (log.dropWhile fun entry => !entry.namesObject).isEmpty =
      !log.any Entry.namesObject := by
    induction log with
    | nil => rfl
    | cons first log ih => cases hnames : first.namesObject <;> simp [hnames, ih]
  rw [hempty]
  cases log.any Entry.namesObject <;> cases hnames : entry.namesObject <;> simp [hnames]

/-- The state before and after the object is named, field by field. -/
theorem state_create_of_not_named {spec : WriteObjectSpec} {initialChunk : Option Bytes}
    (h : log.any Entry.namesObject = false) :
    (Opening.create spec initialChunk).state log =
      .write spec ((latest Entry.routingToken log).getD none) initialChunk := by
  simp [Opening.state, Opening.firstMessage, h, Opening.routingToken, Opening.initialChunk,
    any_isResponse_of_any_namesObject h]

theorem state_create_of_named {spec : WriteObjectSpec} {initialChunk : Option Bytes}
    (h : log.any Entry.namesObject = true) :
    (Opening.create spec initialChunk).state log =
      .append
        { bucket := (spec.resource.map Object.bucket).getD ""
          object := (spec.resource.map Object.name).getD ""
          generation := (latest Entry.generation log).getD 0
          ifMetagenerationMatch := spec.ifMetagenerationMatch
          ifMetagenerationNotMatch := spec.ifMetagenerationNotMatch
          routingToken := (latest Entry.routingToken log).getD none
          writeHandle := latest Entry.writeHandle (log.dropWhile fun entry => !entry.namesObject) }
        (if log.any Entry.isResponse then none else initialChunk) := by
  simp [Opening.state, Opening.firstMessage, h, Opening.routingToken, Opening.initialChunk,
    Opening.bucket]

theorem state_response (response : BidiWriteObjectResponse) :
    opening.state (log ++ [.response response]) = (opening.state log).handleResponse response := by
  cases opening with
  | create spec initialChunk =>
      have hnamed : (log ++ [Entry.response response]).any Entry.namesObject = true := by
        simp [Entry.namesObject, Entry.isResponse]
      rw [state_create_of_named hnamed]
      cases hnames : log.any Entry.namesObject with
      | false =>
          rw [state_create_of_not_named hnames, dropWhile_concat, hnames]
          cases hresource : spec.resource <;>
            simp [AppendObjectSpecState.handleResponse, hresource, Entry.generation,
              latest_generation_eq_none hnames, Entry.routingToken, Entry.namesObject,
              Entry.isResponse, Entry.writeHandle]
      | true =>
          rw [state_create_of_named hnames, dropWhile_concat, hnames]
          simp [AppendObjectSpecState.handleResponse, Entry.generation, Entry.routingToken,
            Entry.isResponse, Entry.writeHandle]
  | takeover spec =>
      simp [Opening.state, Opening.firstMessage, AppendObjectSpecState.handleResponse,
        Entry.generation, Entry.routingToken, Entry.writeHandle, Opening.routingToken,
        Opening.initialChunk, Option.or_assoc]

theorem state_redirect (redirect : BidiWriteObjectRedirectedError) :
    opening.state (log ++ [.redirect redirect]) = (opening.state log).handleRedirect redirect := by
  cases opening with
  | create spec initialChunk =>
      cases hnames : log.any Entry.namesObject with
      | false =>
          have hresponse := any_isResponse_of_any_namesObject hnames
          rw [state_create_of_not_named hnames]
          cases hgeneration : redirect.generation with
          | none =>
              have hnamed : (log ++ [Entry.redirect redirect]).any Entry.namesObject = false := by
                simp [hnames, Entry.namesObject, Entry.isResponse, Entry.generation, hgeneration]
              rw [state_create_of_not_named hnamed]
              simp [AppendObjectSpecState.handleRedirect, hgeneration, Entry.routingToken]
          | some generation =>
              have hnamed : (log ++ [Entry.redirect redirect]).any Entry.namesObject = true := by
                simp [Entry.namesObject, Entry.generation, hgeneration]
              rw [state_create_of_named hnamed, dropWhile_concat, hnames]
              cases hresource : spec.resource <;>
                simp [AppendObjectSpecState.handleRedirect, hresource, Entry.generation,
                  hgeneration, Entry.routingToken, Entry.namesObject, hresponse,
                  Entry.isResponse, Entry.writeHandle]
      | true =>
          have hnamed : (log ++ [Entry.redirect redirect]).any Entry.namesObject = true := by
            simp [hnames]
          rw [state_create_of_named hnamed, state_create_of_named hnames, dropWhile_concat, hnames]
          simp [AppendObjectSpecState.handleRedirect, Entry.generation, Entry.routingToken,
            Entry.isResponse, Entry.writeHandle]
  | takeover spec =>
      simp [Opening.state, Opening.firstMessage, AppendObjectSpecState.handleRedirect,
        Entry.generation, Entry.routingToken, Entry.writeHandle, Opening.routingToken,
        Opening.initialChunk, Option.or_assoc]

theorem state_request (request : BidiWriteObjectRequest) (params : String) :
    opening.state (log ++ [.request request params]) = opening.state log := by
  cases opening with
  | create spec initialChunk =>
      cases hnames : log.any Entry.namesObject with
      | false =>
          have hnamed : (log ++ [Entry.request request params]).any Entry.namesObject = false := by
            simp [hnames, Entry.namesObject, Entry.isResponse, Entry.generation]
          rw [state_create_of_not_named hnamed, state_create_of_not_named hnames]
          simp [Entry.routingToken]
      | true =>
          have hnamed : (log ++ [Entry.request request params]).any Entry.namesObject = true := by
            simp [hnames]
          rw [state_create_of_named hnamed, state_create_of_named hnames, dropWhile_concat, hnames]
          simp [Entry.generation, Entry.routingToken, Entry.isResponse, Entry.writeHandle]
  | takeover spec =>
      simp [Opening.state, Opening.firstMessage, Entry.generation, Entry.routingToken,
        Entry.writeHandle, Opening.routingToken, Opening.initialChunk]

/-! ## Every run -/

variable {crc32c : Bytes → UInt32} {enc : String → String} {options : Options}
  {connector : Connector} {params : Option CommonObjectRequestParams}

theorem prepareRequest_state {request : BidiWriteObjectRequest} {header : String}
    (h : prepareRequest crc32c enc (opening.state log) params = .ok (request, header)) :
    isBucketName opening.bucket = true ∧ request = opening.request crc32c params log ∧
      header = opening.requestParams enc log := by
  have hcases : ∀ {bucketName : String} {request' : BidiWriteObjectRequest} {header' : String},
      (if (!isBucketName bucketName) = true then Except.error Gax.Error.binding
        else Except.ok (request', header')) = .ok (request, header) →
      isBucketName bucketName = true ∧ request' = request ∧ header' = header := by
    intro bucketName request' header' hok
    split_ifs at hok with hbucket
    cases hok
    exact ⟨by simpa using hbucket, rfl, rfl⟩
  cases opening with
  | create spec initialChunk =>
      cases hnames : log.any Entry.namesObject with
      | false =>
          rw [state_create_of_not_named hnames] at h
          obtain ⟨hbucket, rfl, rfl⟩ := hcases h
          refine ⟨hbucket, ?_, ?_⟩
          · simp [Opening.request, Opening.firstMessage, hnames, Opening.initialChunk,
              any_isResponse_of_any_namesObject hnames]
          · rfl
      | true =>
          rw [state_create_of_named hnames] at h
          obtain ⟨hbucket, rfl, rfl⟩ := hcases h
          refine ⟨hbucket, ?_, ?_⟩
          · simp [Opening.request, Opening.firstMessage, hnames, Opening.initialChunk,
              Opening.routingToken, Opening.bucket]
          · rfl
  | takeover spec =>
      obtain ⟨hbucket, rfl, rfl⟩ := hcases h
      exact ⟨hbucket, rfl, rfl⟩

/-- The state follows the log, and so did it before every request in it. -/
structure Follows (crc32c : Bytes → UInt32) (enc : String → String) (opening : Opening)
    (params : Option CommonObjectRequestParams) (connector : Connector) : Prop where
  params_eq : connector.params = params
  started : connector.phase ≠ .idle
  spec : connector.spec = opening.state connector.log
  requests : ∀ before request header, before ++ [.request request header] <+: connector.log →
    isBucketName opening.bucket = true ∧ request = opening.request crc32c params before ∧
      header = opening.requestParams enc before

/-- Only the phase and the budgets change. -/
structure Same (connector next : Connector) : Prop where
  params : next.params = connector.params
  started : connector.phase ≠ .idle → next.phase ≠ .idle
  spec : next.spec = connector.spec
  log : next.log = connector.log

theorem Follows.of_same (h : Follows crc32c enc opening params connector) {next : Connector}
    (hsame : Same connector next) : Follows crc32c enc opening params next := by
  refine ⟨hsame.params.trans h.params_eq, hsame.started h.started, ?_, ?_⟩
  · rw [hsame.spec, hsame.log]
    exact h.spec
  · rw [hsame.log]
    exact h.requests

/-- Nothing but a request needs a justification of its own. -/
theorem Follows.concat (h : Follows crc32c enc opening params connector) {next : Connector}
    (entry : Entry) (hparams : next.params = connector.params) (hphase : next.phase = connector.phase)
    (hspec : next.spec = opening.state (connector.log ++ [entry]))
    (hlog : next.log = connector.log ++ [entry])
    (hentry : ∀ request header, entry = .request request header →
      isBucketName opening.bucket = true ∧
        request = opening.request crc32c params connector.log ∧
        header = opening.requestParams enc connector.log) :
    Follows crc32c enc opening params next := by
  refine ⟨hparams.trans h.params_eq, by rw [hphase]; exact h.started, by rw [hlog, hspec], ?_⟩
  intro before request header hprefix
  rw [hlog, List.prefix_concat_iff] at hprefix
  rcases hprefix with heq | hprefix
  · obtain ⟨rfl, hlast⟩ := List.append_inj' heq rfl
    exact hentry request header (List.singleton_inj.mp hlast).symm
  · exact h.requests before request header hprefix

theorem Follows.handleResponse (h : Follows crc32c enc opening params connector)
    (response : BidiWriteObjectResponse) :
    Follows crc32c enc opening params (connector.handleResponse response) := by
  refine h.concat (.response response) rfl rfl ?_ rfl fun _ _ heq => by cases heq
  rw [state_response, ← h.spec]
  rfl

theorem Follows.handleRedirect (h : Follows crc32c enc opening params connector)
    (failure : Failure) :
    Follows crc32c enc opening params (connector.handleRedirect failure) := by
  unfold Connector.handleRedirect
  cases failure.redirect with
  | none => exact h
  | some redirect =>
      refine h.concat (.redirect redirect) rfl rfl ?_ rfl fun _ _ heq => by cases heq
      rw [state_redirect, ← h.spec]

theorem same_refl (connector : Connector) : Same connector connector :=
  ⟨rfl, fun h => h, rfl, rfl⟩

theorem same_recordProgress (connector : Connector) (persisted : ℤ) :
    Same connector (connector.recordProgress persisted) := by
  unfold Connector.recordProgress
  split_ifs
  · exact ⟨rfl, fun h => h, rfl, rfl⟩
  · exact same_refl connector

theorem same_attemptFailed (loopStart now : ℕ) (failure : Failure) :
    Same connector (connector.attemptFailed options loopStart now failure) := by
  unfold Connector.attemptFailed
  split
  · dsimp only
    split <;> exact ⟨rfl, fun _ => by simp, rfl, rfl⟩
  · dsimp only
    split <;> exact ⟨rfl, fun _ => by simp, rfl, rfl⟩
  · exact same_refl connector

theorem same_attemptSucceeded (initial : BidiWriteObjectResponse) :
    Same connector (connector.attemptSucceeded initial) := by
  unfold Connector.attemptSucceeded
  split
  · exact ⟨rfl, fun _ => by simp, rfl, rfl⟩
  · cases initial.persistedSize with
    | none => exact ⟨rfl, fun _ => by simp, rfl, rfl⟩
    | some initialPersisted =>
        have hsame := same_recordProgress { connector with phase := .connected } initialPersisted
        exact ⟨hsame.params, fun _ => hsame.started (by simp), hsame.spec, hsame.log⟩
  · exact same_refl connector

theorem same_reconnect (now : ℕ) (lastError : Failure) (persisted : ℤ) :
    Same (connector.handleRedirect lastError)
      (connector.reconnect options now lastError persisted) := by
  have hsame := same_recordProgress (connector.handleRedirect lastError) persisted
  unfold Connector.reconnect
  dsimp only
  split_ifs <;> split <;> exact ⟨hsame.params, fun _ => by simp, hsame.spec, hsame.log⟩

theorem Follows.connectAttempt (h : Follows crc32c enc opening params connector)
    (loopStart now : ℕ) (outcome : Outcome) :
    Follows crc32c enc opening params
      (connector.connectAttempt crc32c enc options loopStart now outcome) := by
  unfold Connector.connectAttempt
  cases hprepare : prepareRequest crc32c enc connector.spec connector.params with
  | error error => exact h.of_same (same_attemptFailed ..)
  | ok prepared =>
      obtain ⟨request, header⟩ := prepared
      have hlogged : Follows crc32c enc opening params
          { connector with log := connector.log ++ [Entry.request request header] } := by
        refine h.concat (.request request header) rfl rfl ?_ rfl fun _ _ heq => ?_
        · rw [state_request]
          exact h.spec
        · cases heq
          rw [h.spec, h.params_eq] at hprepare
          exact prepareRequest_state hprepare
      cases outcome with
      | response initial =>
          exact (hlogged.handleResponse initial).of_same (same_attemptSucceeded initial)
      | failure failure => exact (hlogged.handleRedirect failure).of_same (same_attemptFailed ..)

theorem Follows.step (h : Follows crc32c enc opening params connector) (event : Event) :
    Follows crc32c enc opening params (connector.step crc32c enc options event) := by
  unfold Connector.step
  split
  · next hphase => exact absurd hphase h.started
  · next hphase => exact absurd hphase h.started
  · exact h.connectAttempt ..
  · exact h.connectAttempt ..
  · exact h.of_same ⟨rfl, fun _ => by simp, rfl, rfl⟩
  · exact h.of_same ⟨rfl, fun _ => by simp, rfl, rfl⟩
  · exact h.handleResponse _
  · exact (h.handleRedirect _).of_same (same_reconnect ..)
  · exact h

theorem follows_open (opening : Opening) (params : Option CommonObjectRequestParams) :
    Follows crc32c enc opening params
      (Connector.new.step crc32c enc options (opening.event params)) := by
  cases opening <;>
    exact ⟨rfl, by simp [Opening.event, Connector.step, Connector.new], rfl, by
      simp [Opening.event, Connector.step, Connector.new]⟩

/-- Every request that opens a stream of an upload, with its routing header, is determined by
what the upload was opened with and by what the service has answered before it. -/
theorem opening_request_determined (crc32c : Bytes → UInt32) (enc : String → String)
    (options : Options) (opening : Opening) (params : Option CommonObjectRequestParams)
    (events : List Event) (before : List Entry) (request : BidiWriteObjectRequest)
    (header : String)
    (h : before ++ [.request request header] <+:
      (Connector.new.run crc32c enc options (opening.event params :: events)).log) :
    isBucketName opening.bucket = true ∧ request = opening.request crc32c params before ∧
      header = opening.requestParams enc before := by
  have hfollows : Follows crc32c enc opening params
      (Connector.new.run crc32c enc options (opening.event params :: events)) :=
    Interleaving.foldl_invariant (fun _ event h => h.step event) (follows_open opening params) events
  exact hfollows.requests before request header h

/-- The redirect of the first attempt is in the second request, which still has the payload. -/
theorem opening_request_determined_redirected :
    isBucketName "projects/_/buckets/b" = true ∧
      (⟨.writeObjectSpec { resource := some { bucket := "projects/_/buckets/b" } }, 0,
        some ⟨[1], some 7⟩, none, false⟩ : BidiWriteObjectRequest) =
        (Opening.create { resource := some { bucket := "projects/_/buckets/b" } }
          (some [1])).request (fun _ => 7) none
          [.request ⟨.writeObjectSpec { resource := some { bucket := "projects/_/buckets/b" } }, 0,
            some ⟨[1], some 7⟩, none, false⟩ "bucket=projects/_/buckets/b",
            .redirect { routingToken := some "t" }] ∧
      "bucket=projects/_/buckets/b&routing_token=t" =
        (Opening.create { resource := some { bucket := "projects/_/buckets/b" } }
          (some [1])).requestParams id
          [.request ⟨.writeObjectSpec { resource := some { bucket := "projects/_/buckets/b" } }, 0,
            some ⟨[1], some 7⟩, none, false⟩ "bucket=projects/_/buckets/b",
            .redirect { routingToken := some "t" }] :=
  opening_request_determined (fun _ => 7) id ⟨Gax.neverRetry, fun _ => 0⟩
    (.create { resource := some { bucket := "projects/_/buckets/b" } } (some [1])) none
    [.attempt 0 0 (.failure ⟨.service ⟨none, .aborted, []⟩, some { routingToken := some "t" }⟩),
      .attempt 0 1 (.response {})] _ _ _ (by decide +kernel)

end GoogleCloudRust.BidiWriteConnector
