import GoogleCloudRust.Verification.LocationRouter.Routes

/-! # Transactions stick to an endpoint

The requests of a transaction go to the endpoint of its first route as long as this endpoint serves
them, whatever the other transactions do, up to the capacity of the tracker. -/

namespace GoogleCloudRust.LocationRouter

open KeyRangeCache AffinityTracker

variable {router recorded : Router} {capacity : ℕ} {transactionId other : Bytes}
  {address : String} {younger : ℕ}

/-- The tracker has the address of the transaction, and at most so many later transactions. -/
def Sticks (router : Router) (capacity : ℕ) (transactionId : Bytes) (address : String)
    (younger : ℕ) : Prop :=
  ∃ (m : FifoMap Bytes String capacity) (order : List ℕ),
    Represents router.affinityTracker m order ∧ m.Holds transactionId address younger

theorem Sticks.of_tracker_eq (h : Sticks router capacity transactionId address younger)
    (htracker : recorded.affinityTracker = router.affinityTracker) :
    Sticks recorded capacity transactionId address younger := by
  rwa [Sticks, htracker]

theorem Sticks.mono (h : Sticks router capacity transactionId address younger) :
    Sticks router capacity transactionId address (younger + 1) := by
  obtain ⟨m, order, hrepresents, hholds⟩ := h
  exact ⟨m, order, hrepresents, hholds.mono (Nat.le_succ younger)⟩

theorem Sticks.getTransactionAffinity (h : Sticks router capacity transactionId address younger)
    (hne : transactionId ≠ []) : router.getTransactionAffinity transactionId = some address := by
  obtain ⟨m, order, hrepresents, hholds⟩ := h
  rw [Router.getTransactionAffinity, if_neg hne, hrepresents.get_eq, hholds.get]

/-! ## Other transactions -/

theorem Sticks.record (h : Sticks router capacity transactionId address younger)
    (hne : other ≠ transactionId) (hroom : younger + 1 < capacity) {address' : String}
    (hrecord : router.recordTransactionAffinity other address' = some recorded) :
    Sticks recorded capacity transactionId address (younger + 1) := by
  obtain ⟨m, order, hrepresents, hholds⟩ := h
  obtain ⟨tracker, hinsert, order', hinserted⟩ := hrepresents.insert_represents other address'
  rw [Router.recordTransactionAffinity] at hrecord
  split_ifs at hrecord with hempty
  · obtain rfl := Option.some.inj hrecord
    exact ⟨m, order, hrepresents, hholds.mono (Nat.le_succ younger)⟩
  · rw [hinsert] at hrecord
    obtain rfl := Option.some.inj hrecord
    rw [if_neg hempty] at hinserted
    exact ⟨_, order', hinserted, hholds.insert hne hroom address'⟩

theorem Sticks.clear (h : Sticks router capacity transactionId address younger)
    (hne : other ≠ transactionId) :
    Sticks (router.clearTransactionAffinity other) capacity transactionId address younger := by
  obtain ⟨m, order, hrepresents, hholds⟩ := h
  obtain ⟨order', hremoved⟩ := (hrepresents.remove_represents other).2
  rw [Router.clearTransactionAffinity]
  split_ifs with hempty
  · exact ⟨m, order, hrepresents, hholds⟩
  · exact ⟨_, order', hremoved, hholds.remove hne⟩

/-! ## Calls -/

/-- The request is one of the transaction, with affinity. -/
structure Belongs (transactionId : Bytes) (request : RouteRequest) : Prop where
  useTransactionAffinity : request.context.useTransactionAffinity = true
  transactionId_eq : request.context.transactionId = some transactionId

/-- The call does not clear the transaction, and if it is a request of the transaction, the
endpoint serves it. -/
def RouterCall.Keeps (transactionId : Bytes) (address : String) : RouterCall → Prop
  | .resolveRoute observed request => Belongs transactionId request →
      ∃ connection, Serves observed.affinity ⟨address, connection⟩
  | .clearTransactionAffinity other => other ≠ transactionId
  | .addRanges _ => True
  | .clearRanges => True

/-- If the call is a request of the transaction, its route leads to the endpoint. -/
def RouterCall.RoutedTo (transactionId : Bytes) (address : String) (call : RouterCall)
    (route : Option ResolvedRoute) : Prop :=
  ∀ observed request, call = .resolveRoute observed request → Belongs transactionId request →
    ∃ resolved, route = some resolved ∧ resolved.connection.address = address ∧
      Serves observed.affinity resolved.connection

/-- A request of another transaction, or without affinity, records at most another affinity. -/
theorem Sticks.connects {middle : Router} {snapshot : Snapshot} {context : RoutingContext}
    {selected : Option Tablet} {target : Option Target} {result : TargetConnection}
    (h : Sticks middle capacity transactionId address younger) (hroom : younger + 1 < capacity)
    (hother : context.useTransactionAffinity = true → context.transactionId ≠ some transactionId)
    (hconnects : Connects middle snapshot context selected target result) :
    Sticks result.router capacity transactionId address (younger + 1) := by
  cases hconnects with
  | affinity target => exact h.mono
  | default _ => exact h.mono
  | direct _ _ hrecords =>
      cases hrecords with
      | unused _ => exact h.mono
      | recorded huse hid hrecord =>
          refine h.record ?_ hroom hrecord
          rintro rfl
          exact hother huse hid

theorem Sticks.resolveRoute (h : Sticks router capacity transactionId address younger)
    (hvalid : router.Valid capacity) (hne : transactionId ≠ []) (hroom : younger + 1 < capacity)
    {observed : Observations} {request : RouteRequest}
    (hkeeps : (RouterCall.resolveRoute observed request).Keeps transactionId address)
    {resolution : Resolution} (hresolve : router.resolveRoute observed request = some resolution) :
    Sticks resolution.router capacity transactionId address (younger + 1) ∧
      (Belongs transactionId request → resolution.route.connection.address = address ∧
        Serves observed.affinity resolution.route.connection) := by
  obtain ⟨middle, location, selected, result, -, htracker, -, -, -, -, hconnects, hsteps⟩ :=
    resolveRoute_steps hvalid observed request
  obtain rfl := Option.some.inj (hsteps.symm.trans hresolve)
  by_cases hbelongs : Belongs transactionId request
  · obtain ⟨connection, hserves⟩ := hkeeps hbelongs
    have hpinned : Pinned router observed.affinity request.context ⟨address, connection⟩ :=
      ⟨hbelongs.useTransactionAffinity, ⟨transactionId, hbelongs.transactionId_eq,
        h.getTransactionAffinity hne⟩, hserves⟩
    rw [resolveAffinityConnection_eq_some.mpr hpinned] at hconnects
    cases hconnects
    exact ⟨h.mono.of_tracker_eq htracker, fun _ => ⟨rfl, hserves⟩⟩
  · refine ⟨(h.of_tracker_eq htracker).connects hroom ?_ hconnects,
      fun hbelongs' => absurd hbelongs' hbelongs⟩
    exact fun huse hid => hbelongs ⟨huse, hid⟩

theorem Sticks.step (h : Sticks router capacity transactionId address younger)
    (hvalid : router.Valid capacity) (hne : transactionId ≠ []) (hroom : younger + 1 < capacity)
    {call : RouterCall} (hkeeps : call.Keeps transactionId address)
    {route : Option ResolvedRoute} {next : Router} (hstep : router.step call = some (route, next)) :
    Sticks next capacity transactionId address (younger + 1) ∧
      call.RoutedTo transactionId address route := by
  cases call with
  | resolveRoute observed request =>
      rw [Router.step] at hstep
      obtain ⟨resolution, hresolve, hpair⟩ := Option.map_eq_some_iff.mp hstep
      cases hpair
      obtain ⟨hsticks, hroute⟩ := h.resolveRoute hvalid hne hroom hkeeps hresolve
      refine ⟨hsticks, fun observed' request' hcall hbelongs => ?_⟩
      cases hcall
      exact ⟨_, rfl, hroute hbelongs⟩
  | clearTransactionAffinity other =>
      cases hstep
      exact ⟨(h.clear hkeeps).mono, fun _ _ hcall => by cases hcall⟩
  | addRanges cacheUpdate =>
      cases hstep
      exact ⟨h.mono.of_tracker_eq rfl, fun _ _ hcall => by cases hcall⟩
  | clearRanges =>
      cases hstep
      exact ⟨h.mono.of_tracker_eq rfl, fun _ _ hcall => by cases hcall⟩

/-- As many calls as there is room for keep the affinity. -/
theorem Sticks.run (h : Sticks router capacity transactionId address younger)
    (hvalid : router.Valid capacity) (hne : transactionId ≠ []) {calls : List RouterCall}
    (hroom : younger + calls.length < capacity)
    (hkeeps : ∀ call ∈ calls, call.Keeps transactionId address) :
    ∃ routes final, router.run calls = some (routes, final) ∧
      List.Forall₂ (RouterCall.RoutedTo transactionId address) calls routes := by
  induction calls generalizing router younger with
  | nil => exact ⟨[], router, rfl, .nil⟩
  | cons call calls ih =>
      rw [List.length_cons] at hroom
      obtain ⟨route, next, hstep, hnext⟩ := step_valid hvalid call
      obtain ⟨hsticks, hrouted⟩ :=
        h.step hvalid hne (by omega) (hkeeps call List.mem_cons_self) hstep
      obtain ⟨routes, final, hrun, hroutes⟩ := ih hsticks hnext (by omega)
        fun later hmem => hkeeps later (List.mem_cons_of_mem call hmem)
      exact ⟨route :: routes, final, by simp [Router.run, hstep, hrun], .cons hrouted hroutes⟩

/-! ## The first route -/

/-- A new affinity is the youngest. -/
theorem sticks_record (hvalid : router.Valid capacity) (hcapacity : 0 < capacity)
    (hne : transactionId ≠ []) (hfresh : router.getTransactionAffinity transactionId = none)
    (hrecord : router.recordTransactionAffinity transactionId address = some recorded) :
    Sticks recorded capacity transactionId address 0 := by
  obtain ⟨m, order, hrepresents⟩ := hvalid.affinity
  obtain ⟨tracker, hinsert, order', hinserted⟩ :=
    hrepresents.insert_represents transactionId address
  rw [Router.getTransactionAffinity, if_neg hne, hrepresents.get_eq, FifoMap.get_eq_none]
    at hfresh
  rw [Router.recordTransactionAffinity, if_neg hne, hinsert] at hrecord
  obtain rfl := Option.some.inj hrecord
  rw [if_neg hne] at hinserted
  exact ⟨_, order', hinserted, FifoMap.holds_insert hfresh hcapacity address⟩

/-- A transaction without affinity gets one from its first direct route. -/
theorem sticks_first (hvalid : router.Valid capacity) (hcapacity : 0 < capacity)
    (hne : transactionId ≠ []) (hfresh : router.getTransactionAffinity transactionId = none)
    {observed : Observations} {request : RouteRequest}
    (hid : request.context.transactionId = some transactionId) {resolution : Resolution}
    (hresolve : router.resolveRoute observed request = some resolution)
    (haddress : resolution.router.getTransactionAffinity transactionId = some address) :
    resolution.route.connection.address = address ∧
      Sticks resolution.router capacity transactionId address 0 := by
  obtain ⟨middle, location, selected, result, hmiddle, htracker, -, -, -, -, hconnects, hsteps⟩ :=
    resolveRoute_steps hvalid observed request
  obtain rfl := Option.some.inj (hsteps.symm.trans hresolve)
  have hmiddleFresh : middle.getTransactionAffinity transactionId = none := by
    rwa [Router.getTransactionAffinity, htracker]
  generalize router.resolveAffinityConnection observed.affinity request.context = target
    at hconnects
  have hunchanged : result.router = middle → False := by
    intro heq
    rw [heq, hmiddleFresh] at haddress
    cases haddress
  cases hconnects with
  | affinity target => exact (hunchanged rfl).elim
  | default _ => exact (hunchanged rfl).elim
  | direct _ _ hrecords =>
      cases hrecords with
      | unused _ => exact (hunchanged rfl).elim
      | recorded huse hid' hrecord =>
          obtain rfl := Option.some.inj (hid'.symm.trans hid)
          have hsticks := sticks_record hmiddle hcapacity hne hmiddleFresh hrecord
          obtain rfl := Option.some.inj ((hsticks.getTransactionAffinity hne).symm.trans haddress)
          exact ⟨rfl, hsticks⟩

/-- The first direct route of a transaction settles its endpoint. During as many calls as the
tracker has entries, but one, all requests of the transaction with affinity go to this endpoint if
it serves them and the transaction is not cleared. -/
theorem run_routedTo {maxAffinityEntries : ℕ} {defaultConnection : Target}
    {before : List RouterCall} {earlier : List (Option ResolvedRoute)} {router : Router}
    (hbefore : (Router.new maxAffinityEntries defaultConnection).run before =
      some (earlier, router))
    {transactionId : Bytes} (hne : transactionId ≠ [])
    (hfresh : router.getTransactionAffinity transactionId = none)
    {observed : Observations} {request : RouteRequest}
    (hid : request.context.transactionId = some transactionId) {resolution : Resolution}
    (hresolve : router.resolveRoute observed request = some resolution) {address : String}
    (haddress : resolution.router.getTransactionAffinity transactionId = some address)
    {calls : List RouterCall} (hroom : calls.length < maxAffinityEntries)
    (hkeeps : ∀ call ∈ calls, call.Keeps transactionId address) :
    resolution.route.connection.address = address ∧
      ∃ routes final, resolution.router.run calls = some (routes, final) ∧
        List.Forall₂ (RouterCall.RoutedTo transactionId address) calls routes := by
  obtain ⟨routes, reached, hrun, hvalid⟩ :=
    run_valid (new_valid maxAffinityEntries defaultConnection) before
  cases hrun.symm.trans hbefore
  obtain ⟨hfirst, hsticks⟩ :=
    sticks_first hvalid (by omega) hne hfresh hid hresolve haddress
  obtain ⟨-, -, resolution', hresolve', hnext, -⟩ := resolveRoute_spec hvalid observed request
  obtain rfl := Option.some.inj (hresolve'.symm.trans hresolve)
  exact ⟨hfirst, hsticks.run hnext hne (by omega) hkeeps⟩

/-- A range of all keys, with one tablet. -/
def singleRange : CacheUpdate where
  range := [⟨[], [], 1, 1, [1]⟩]
  group := [⟨1, [⟨7, "a", "", .readWrite, [], 0, false⟩], 0, [1]⟩]

def healthySnapshot : Snapshot where
  isCoolingDown _ := false
  isTransientFailureEvicted _ := false
  getIfPresent _ := some ⟨.ready, 0⟩
  getSelectionCost _ _ _ := ⟨0⟩

def healthyObservations : Observations where
  affinity := healthySnapshot
  selection := healthySnapshot
  connection := healthySnapshot
  hint := ⟨healthySnapshot, true, false, fun _ _ => rfl, fun _ _ => rfl⟩
  draws := ⟨0, 0⟩

def commitRequest : RouteRequest where
  context := ⟨some [5], some [9], true, true⟩
  directedReadOptions := none
  databaseId := 3
  schemaGeneration := none
  operationUid := 4
  clientLocation := none

/-- The first request of the transaction is routed to the tablet, and so is the next one. -/
theorem run_routedTo_tablet : ∃ earlier router resolution routes final,
    (Router.new 2 ⟨"d", ⟨.ready, 0⟩⟩).run [.addRanges singleRange] = some (earlier, router) ∧
      router.resolveRoute healthyObservations commitRequest = some resolution ∧
      resolution.route.connection.address = "a" ∧
      resolution.router.run [.resolveRoute healthyObservations commitRequest] =
        some (routes, final) ∧
      List.Forall₂ (RouterCall.RoutedTo [5] "a")
        [.resolveRoute healthyObservations commitRequest] routes := by
  have h := @run_routedTo 2 ⟨"d", ⟨.ready, 0⟩⟩ [.addRanges singleRange] _ _ rfl [5] (by decide) rfl
    healthyObservations commitRequest rfl _ rfl "a" rfl
    [.resolveRoute healthyObservations commitRequest] (by decide) ?_
  · obtain ⟨haddress, routes, final, hrun, hroutes⟩ := h
    exact ⟨_, _, _, routes, final, rfl, rfl, haddress, hrun, hroutes⟩
  · intro call hmem
    obtain rfl := List.mem_singleton.mp hmem
    exact fun _ => ⟨⟨.ready, 0⟩, rfl, rfl, rfl⟩

end GoogleCloudRust.LocationRouter
