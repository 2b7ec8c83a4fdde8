import GoogleCloudRust.Model.RouteResolution
import GoogleCloudRust.Verification.AffinityTracker.Refinement
import GoogleCloudRust.Verification.KeyRangeCache.Partition
import GoogleCloudRust.Verification.LocationRouter.Selection

/-! # Routes

With or without a replica directive, a tablet is chosen if and only if one of those that are
considered is routable. After any calls on a router, a request gets a route. The connection and the
hint of the route agree on the tablet, whatever happens to cooldowns and connections while the route
is resolved. -/

namespace GoogleCloudRust.LocationRouter

open KeyRangeCache AffinityTracker

variable {snapshot : Snapshot} {group : CachedGroup} {s : Collection} {candidates : List Candidate}

/-- The tablets a resolution looks at. -/
def considered (group : CachedGroup) (preferLeader : Bool) (replicas : Option Replicas) :
    List Tablet :=
  match replicas with
  | some replicas =>
      group.tablets.filter fun tablet => !tablet.skip && matchesReplicas tablet replicas
  | none =>
      (if preferLeader then group.localLeaderIndex else none).toList.filterMap
          (fun index => group.tablets[index]?) ++
        group.eligibleReplicaIndices.filterMap fun index => group.tablets[index]?

/-- The index is that of a routable one of the tablets. -/
def Chosen (snapshot : Snapshot) (group : CachedGroup) (tablets : List Tablet) (index : ℕ) : Prop :=
  ∃ tablet, group.tablets[index]? = some tablet ∧ tablet ∈ tablets ∧
    snapshot.isTabletRoutable tablet = true

theorem Chosen.mono {tablets tablets' : List Tablet} {index : ℕ}
    (h : Chosen snapshot group tablets index) (hsub : tablets ⊆ tablets') :
    Chosen snapshot group tablets' index := by
  obtain ⟨tablet, hget, hmem, hroutable⟩ := h
  exact ⟨tablet, hget, hsub hmem, hroutable⟩

theorem resolveCandidateConnection_eq_none {tablet : Tablet} :
    snapshot.resolveCandidateConnection tablet = none ↔
      snapshot.isTabletRoutable tablet = false := by
  rw [← (resolveCandidateConnection_spec snapshot tablet).1, Option.isSome_eq_false_iff,
    Option.isNone_iff_eq_none]

theorem isTabletRoutable_of_resolve {tablet : Tablet} {connection : Option ServerConnection}
    (h : snapshot.resolveCandidateConnection tablet = some connection) :
    snapshot.isTabletRoutable tablet = true := by
  rw [← (resolveCandidateConnection_spec snapshot tablet).1, h]
  rfl

/-! ## Eligible replicas -/

/-- The new candidates come from the indices, and there is one if one of these is routable. -/
theorem collectDefaultFrom_stored (h : Stored s candidates) (indices : List ℕ) :
    ∃ next more, collectDefaultFrom snapshot group.tablets s indices = .ok next ∧
      Stored next (candidates ++ more) ∧
      (∀ candidate ∈ more,
        Chosen snapshot group (indices.filterMap fun index => group.tablets[index]?) candidate.1) ∧
      (candidates ++ more = [] → ∀ tablet ∈ indices.filterMap fun index => group.tablets[index]?,
        snapshot.isTabletRoutable tablet = false) := by
  have hlength : s.routable.length = maxRoutableCandidates := by
    rw [h.routable, length_filled h.fits]
  induction indices generalizing s candidates with
  | nil =>
      exact ⟨s, [], rfl, by rwa [List.append_nil], fun _ hmem => absurd hmem List.not_mem_nil,
        fun _ _ hmem => absurd hmem List.not_mem_nil⟩
  | cons index rest ih =>
      rw [collectDefaultFrom]
      by_cases hfull : s.routable.length ≤ s.routableCount
      · -- The slots are full, so that there are candidates.
        rw [if_pos hfull]
        refine ⟨s, [], rfl, by rwa [List.append_nil],
          fun _ hmem => absurd hmem List.not_mem_nil, ?_⟩
        intro hnil
        rw [List.append_nil] at hnil
        rw [hlength, h.count, hnil] at hfull
        exact absurd hfull (by decide)
      · rw [if_neg hfull]
        have hroom : candidates.length < maxRoutableCandidates := by
          rw [hlength, h.count] at hfull
          omega
        cases htablet : group.tablets[index]? with
        | none =>
            obtain ⟨next, more, hnext, hstored, hchosen, hcomplete⟩ := ih h hlength
            refine ⟨next, more, hnext, hstored, ?_, ?_⟩
            · rw [List.filterMap_cons_none htablet]
              exact hchosen
            · rw [List.filterMap_cons_none htablet]
              exact hcomplete
        | some tablet =>
            rw [List.filterMap_cons_some htablet, Option.bind_some]
            cases hresolve : snapshot.resolveCandidateConnection tablet with
            | none =>
                obtain ⟨next, more, hnext, hstored, hchosen, hcomplete⟩ := ih h hlength
                refine ⟨next, more, hnext, hstored, fun candidate hmem =>
                  (hchosen candidate hmem).mono (List.subset_cons_self _ _), ?_⟩
                intro hnil other hother
                rcases List.mem_cons.mp hother with rfl | hother
                · exact resolveCandidateConnection_eq_none.mp hresolve
                · exact hcomplete hnil other hother
            | some connection =>
                obtain ⟨pushed, hpush, hpushed⟩ := h.push hroom (index, connection)
                have hpushedLength : pushed.routable.length = maxRoutableCandidates := by
                  rw [hpushed.routable, length_filled hpushed.fits]
                obtain ⟨next, more, hnext, hstored, hchosen, -⟩ := ih hpushed hpushedLength
                refine ⟨next, (index, connection) :: more, ?_, ?_, ?_, ?_⟩
                · change (s.push (index, connection) >>= fun s =>
                    collectDefaultFrom snapshot group.tablets s rest) = _
                  rw [hpush]
                  exact hnext
                · rwa [List.append_assoc, List.singleton_append] at hstored
                · intro candidate hmem
                  rcases List.mem_cons.mp hmem with rfl | hmem
                  · exact ⟨tablet, htablet, List.mem_cons_self,
                      isTabletRoutable_of_resolve hresolve⟩
                  · exact (hchosen candidate hmem).mono (List.subset_cons_self _ _)
                · intro hnil
                  exact absurd hnil (List.append_ne_nil_of_right_ne_nil _ (List.cons_ne_nil _ _))

/-! ## Followers -/

/-- The candidates of a selection among the tablets. -/
structure Gives (snapshot : Snapshot) (group : CachedGroup) (tablets : List Tablet)
    (candidates : List Candidate) : Prop where
  chosen : ∀ candidate ∈ candidates, Chosen snapshot group tablets candidate.1
  complete : candidates = [] → ∀ tablet ∈ tablets, snapshot.isTabletRoutable tablet = false

/-- Without a leader, one of the tablets is chosen if one of them is routable. -/
theorem selectHealthyFollower_spec (snapshot : Snapshot) (group : CachedGroup) (groupUid : UInt64)
    (options : Option DirectedReadOptions) (draws : Draws) :
    ∃ selected, selectHealthyFollower snapshot group groupUid options draws = .ok selected ∧
      (∀ index, selected = some index → Chosen snapshot group
        (considered group false (options.bind DirectedReadOptions.replicas)) index) ∧
      (selected = none → ∀ tablet ∈
        considered group false (options.bind DirectedReadOptions.replicas),
        snapshot.isTabletRoutable tablet = false) := by
  have hcollect : ∃ s candidates,
      (match options.bind DirectedReadOptions.replicas with
        | some replicas => collectDirectedReadCandidates snapshot group replicas .empty
        | none => collectDefaultCandidates snapshot group .empty) = .ok s ∧ Stored s candidates ∧
      Gives snapshot group (considered group false (options.bind DirectedReadOptions.replicas))
        candidates := by
    cases options.bind DirectedReadOptions.replicas with
    | none =>
        obtain ⟨s, candidates, hs, hstored, hchosen, hcomplete⟩ :=
          @collectDefaultFrom_stored snapshot group _ _ stored_empty group.eligibleReplicaIndices
        exact ⟨s, candidates, hs, hstored, hchosen, hcomplete⟩
    | some replicas =>
        obtain ⟨s, hs, hstored⟩ := collectDirectedReadCandidates_stored snapshot group replicas
        rw [← nearestEntries] at hstored
        refine ⟨s, _, hs, hstored, ?_, ?_⟩
        · intro candidate hmem
          obtain ⟨entry, hentry, rfl⟩ := List.mem_map.mp hmem
          obtain ⟨hget, hcandidate⟩ := getElem?_of_mem_nearestEntries hentry
          rw [isCandidate, Bool.and_eq_true] at hcandidate
          exact ⟨entry.1, hget, List.mem_filter.mpr ⟨List.mem_of_getElem? hget, hcandidate.1⟩,
            hcandidate.2⟩
        · intro hnil tablet hmem
          obtain ⟨htablet, hmatches⟩ := List.mem_filter.mp hmem
          have hnone := nearestEntries_eq_nil.mp (List.map_eq_nil_iff.mp hnil) tablet htablet
          rwa [isCandidate, hmatches, Bool.true_and] at hnone
  obtain ⟨s, candidates, hs, hstored, hgives⟩ := hcollect
  have hgroup : ∀ candidate ∈ candidates, ∃ tablet, group.tablets[candidate.1]? = some tablet := by
    intro candidate hmem
    obtain ⟨tablet, hget, -⟩ := hgives.chosen candidate hmem
    exact ⟨tablet, hget⟩
  obtain ⟨selected, hselect, hnone, hsome⟩ := hstored.selectCandidate groupUid draws hgroup
  refine ⟨selected, ?_, ?_, fun h => hgives.complete (hnone.mp h)⟩
  · rw [selectHealthyFollower]
    have hbind := (congrArg (· >>= selectCandidate snapshot group groupUid draws) hs).trans hselect
    cases hreplicas : options.bind DirectedReadOptions.replicas with
    | none =>
        rw [hreplicas] at hbind
        exact hbind
    | some replicas =>
        rw [hreplicas] at hbind
        exact hbind
  · intro index hindex
    obtain ⟨candidate, hmem, rfl⟩ := hsome index hindex
    exact hgives.chosen candidate ((preferred_sublist candidates).subset hmem)

/-! ## Leaders -/

theorem selectHealthyLeader_eq_none (h : selectHealthyLeader snapshot group = none) :
    ∀ tablet ∈ group.localLeaderIndex.toList.filterMap fun index => group.tablets[index]?,
      snapshot.isTabletRoutable tablet = false := by
  intro tablet hmem
  obtain ⟨index, hindex, hget⟩ := List.mem_filterMap.mp hmem
  rw [Option.mem_toList] at hindex
  simp only [selectHealthyLeader, hindex, Option.bind_eq_bind, Option.bind_some, hget] at h
  cases hresolve : snapshot.resolveCandidateConnection tablet with
  | none => exact resolveCandidateConnection_eq_none.mp hresolve
  | some connection =>
      rw [hresolve] at h
      cases h

theorem selectHealthyLeader_chosen {candidate : Candidate}
    (h : selectHealthyLeader snapshot group = some candidate) :
    Chosen snapshot group
      (group.localLeaderIndex.toList.filterMap fun index => group.tablets[index]?) candidate.1 := by
  simp only [selectHealthyLeader, Option.bind_eq_bind, Option.bind_eq_some_iff] at h
  obtain ⟨index, hindex, tablet, hget, connection, hresolve, hcandidate⟩ := h
  obtain rfl := Option.some.inj hcandidate
  refine ⟨tablet, hget, ?_, isTabletRoutable_of_resolve hresolve⟩
  rw [hindex]
  exact List.mem_filterMap.mpr ⟨index, by simp, hget⟩

/-- A tablet is chosen if one of those that are considered is routable, and it is one of them. -/
theorem selectHealthyTablet_spec (snapshot : Snapshot) (range : CachedRange) (group : CachedGroup)
    (preferLeader : Bool) (options : Option DirectedReadOptions) (draws : Draws) :
    ∃ selected, selectHealthyTablet snapshot range group preferLeader options draws = .ok selected ∧
      (∀ index, selected = some index → Chosen snapshot group
        (considered group preferLeader (options.bind DirectedReadOptions.replicas)) index) ∧
      (selected = none → ∀ tablet ∈
        considered group preferLeader (options.bind DirectedReadOptions.replicas),
        snapshot.isTabletRoutable tablet = false) := by
  obtain ⟨follower, hfollower, hchosen, hcomplete⟩ :=
    selectHealthyFollower_spec snapshot group range.groupUid options draws
  rw [selectHealthyTablet]
  cases hreplicas : options.bind DirectedReadOptions.replicas with
  | some replicas =>
      rw [hreplicas] at hchosen hcomplete
      refine ⟨follower, ?_, hchosen, hcomplete⟩
      cases preferLeader <;> exact hfollower
  | none =>
      rw [hreplicas] at hchosen hcomplete
      cases preferLeader with
      | false => exact ⟨follower, hfollower, hchosen, hcomplete⟩
      | true =>
          have hsub : considered group false none ⊆ considered group true none :=
            List.subset_append_right _ _
          cases hleader : selectHealthyLeader snapshot group with
          | none =>
              refine ⟨follower, ?_, fun index h => (hchosen index h).mono hsub, ?_⟩
              · simp only [Option.isSome_none, Bool.not_false, Bool.and_self, if_true]
                exact hfollower
              · intro hnone tablet hmem
                rcases List.mem_append.mp hmem with hmem | hmem
                · exact selectHealthyLeader_eq_none hleader tablet hmem
                · exact hcomplete hnone tablet hmem
          | some leader =>
              have hleaderChosen : Chosen snapshot group (considered group true none) leader.1 :=
                (selectHealthyLeader_chosen hleader).mono (List.subset_append_left _ _)
              obtain ⟨leaderIndex, connection⟩ := leader
              simp only [Option.isSome_none, Bool.not_false, Bool.and_self, if_true]
              cases connection with
              | some connection =>
                  refine ⟨some leaderIndex, rfl, ?_, fun h => by cases h⟩
                  intro index hindex
                  exact Option.some.inj hindex ▸ hleaderChosen
              | none =>
                  -- A warmed follower is taken instead of the leader.
                  rw [hfollower]
                  cases hwarmed : follower.filter (isWarmedFollower snapshot group) with
                  | some followerIndex =>
                      refine ⟨some followerIndex, ?_, ?_, fun h => by cases h⟩
                      · simp only [bind, Except.bind, hwarmed]
                        rfl
                      · intro index hindex
                        obtain rfl := Option.some.inj hindex
                        exact (hchosen _ (Option.filter_eq_some_iff.mp hwarmed).1).mono hsub
                  | none =>
                      refine ⟨some leaderIndex, ?_, ?_, fun h => by cases h⟩
                      · simp only [bind, Except.bind, hwarmed]
                        rfl
                      · intro index hindex
                        exact Option.some.inj hindex ▸ hleaderChosen

/-! ## Valid routers -/

structure Router.Valid (router : Router) (capacity : ℕ) : Prop where
  ranges : WellFormed router.keyRangeCache.state.ranges
  affinity : ∃ (m : FifoMap Bytes String capacity) (order : List ℕ),
    Represents router.affinityTracker m order

theorem new_valid (maxAffinityEntries : ℕ) (defaultConnection : Target) :
    (Router.new maxAffinityEntries defaultConnection).Valid maxAffinityEntries :=
  ⟨new_wellFormed, _, _, withMaxCapacity_represents maxAffinityEntries⟩

namespace Router.Valid

variable {router : Router} {capacity : ℕ}

theorem recordTransactionAffinity (h : router.Valid capacity) (transactionId : Bytes) (address : String) :
    ∃ recorded, router.recordTransactionAffinity transactionId address = some recorded ∧
      recorded.Valid capacity ∧ recorded.keyRangeCache = router.keyRangeCache := by
  obtain ⟨m, order, hrepresents⟩ := h.affinity
  obtain ⟨tracker, hinsert, order', hinserted⟩ := hrepresents.insert_represents transactionId address
  rw [Router.recordTransactionAffinity]
  split_ifs with hid
  · exact ⟨router, rfl, h, rfl⟩
  · rw [hinsert]
    exact ⟨_, rfl, ⟨h.ranges, _, order', hinserted⟩, rfl⟩

theorem clearTransactionAffinity (h : router.Valid capacity) (transactionId : Bytes) :
    (router.clearTransactionAffinity transactionId).Valid capacity := by
  obtain ⟨m, order, hrepresents⟩ := h.affinity
  rw [Router.clearTransactionAffinity]
  split_ifs with hid
  · exact h
  · obtain ⟨order', hremoved⟩ := (hrepresents.remove_represents transactionId).2
    exact ⟨h.ranges, _, order', hremoved⟩

end Router.Valid

/-- The affinity that was recorded is found. -/
theorem getTransactionAffinity_record {router recorded : Router} {capacity : ℕ}
    (h : router.Valid capacity) {transactionId : Bytes} {address : String}
    (hid : transactionId ≠ []) (hcapacity : 0 < capacity)
    (hrecord : router.recordTransactionAffinity transactionId address = some recorded) :
    recorded.getTransactionAffinity transactionId = some address := by
  obtain ⟨m, order, hrepresents⟩ := h.affinity
  obtain ⟨tracker, hinsert, order', hinserted⟩ := hrepresents.insert_represents transactionId address
  rw [Router.recordTransactionAffinity, if_neg hid, hinsert] at hrecord
  obtain rfl := Option.some.inj hrecord
  rw [if_neg hid] at hinserted
  rw [Router.getTransactionAffinity, if_neg hid, hinserted.get_eq]
  exact FifoMap.get_insert_self m hcapacity transactionId address

/-! ## Ranges -/

/-- A stored range contains the key, up to its access time. -/
def Router.Covers (router : Router) (key : Bytes) (range : CachedRange) : Prop :=
  ∃ e ∈ router.keyRangeCache.state.ranges, Contains e.2 key ∧
    range = { e.2 with lastAccess := range.lastAccess }

/-- What is known of the key of a request. -/
structure Located (router : Router) (routingKey : Option Bytes)
    (location : Option (CachedRange × CachedGroup)) : Prop where
  hit : ∀ range group, location = some (range, group) → ∃ key ∈ routingKey, key ≠ [] ∧
    router.Covers key range ∧ getGroup router.keyRangeCache range.groupUid = some group
  miss : location = none → ∀ key ∈ routingKey, key ≠ [] → ∀ range, router.Covers key range →
    getGroup router.keyRangeCache range.groupUid = none

/-- A lookup of one key touches the range that contains it, if there is one. -/
theorem findRange_covering {cache : Cache} (h : WellFormed cache.state.ranges)
    (uniformRandom : ℕ → ℕ) (key : Bytes) :
    (∃ e ∈ cache.state.ranges, Contains e.2 key ∧
      findRange cache uniformRandom key [] .coveringSplit = touch cache e) ∨
    ((∀ e ∈ cache.state.ranges, ¬Contains e.2 key) ∧
      findRange cache uniformRandom key [] .coveringSplit = (none, cache)) := by
  have hnone : (∀ e, cache.state.ranges.lastLE key = some e → inRange key e.2 = false) →
      ∀ e ∈ cache.state.ranges, ¬Contains e.2 key := by
    intro hmissing e he hcontains
    have hlast := h.partition.lastLE_eq_of_covers he ((contains_iff_covers h he).mp hcontains)
    have hin := hmissing e hlast
    rw [inRange, decide_eq_false_iff_not] at hin
    exact hin hcontains.2
  rw [findRange]
  cases hlast : cache.state.ranges.lastLE key with
  | none =>
      refine .inr ⟨hnone fun e he => ?_, by simp⟩
      rw [hlast] at he
      cases he
  | some first =>
      obtain ⟨hmem, hle, -⟩ := OrdMap.lastLE_eq_some_iff.mp hlast
      cases hin : inRange key first.2 with
      | true =>
          refine .inl ⟨first, hmem, ⟨?_, ?_⟩, by simp [hin]⟩
          · rwa [h.startKey_eq first hmem]
          · rwa [inRange, decide_eq_true_iff] at hin
      | false =>
          refine .inr ⟨hnone fun e he => ?_, by simp [hin]⟩
          obtain rfl := Option.some.inj (hlast.symm.trans he)
          exact hin

theorem findRangeAndGroup_spec {router : Router} {capacity : ℕ} (h : router.Valid capacity)
    (routingKey : Option Bytes) :
    Located router routingKey (router.findRangeAndGroup routingKey).1 ∧
      (router.findRangeAndGroup routingKey).2.Valid capacity ∧
      (router.findRangeAndGroup routingKey).2.affinityTracker = router.affinityTracker ∧
      (router.findRangeAndGroup routingKey).2.defaultConnection = router.defaultConnection := by
  rw [Router.findRangeAndGroup]
  cases hkey : routingKey.filter (· ≠ []) with
  | none =>
      refine ⟨⟨fun range group hlocation => absurd hlocation.symm (Option.some_ne_none _), ?_⟩,
        h, rfl, rfl⟩
      intro _ key hmem hne
      have hno := Option.filter_eq_none_iff.mp hkey key hmem
      exact absurd hne (by simpa using hno)
  | some key =>
      obtain ⟨hmem, hne⟩ := Option.filter_eq_some_iff.mp hkey
      have hkeys : ∀ other ∈ routingKey, other = key :=
        fun other hother => Option.some.inj (hother.symm.trans hmem)
      rcases findRange_covering h.ranges (fun _ => 0) key with ⟨e, he, hcontains, htouch⟩ | hmiss
      · dsimp only
        rw [htouch]
        have hcovers : ∀ other ∈ routingKey, ∀ range, router.Covers other range →
            range.groupUid = e.2.groupUid := by
          intro other hother range hrange
          obtain ⟨e', he', hcontains', hrange⟩ := hrange
          rw [hkeys other hother] at hcontains'
          have hsame := h.ranges.partition.covers_unique he' he
            ((contains_iff_covers h.ranges he').mp hcontains')
            ((contains_iff_covers h.ranges he).mp hcontains)
          rw [hrange, hsame]
        refine ⟨⟨?_, ?_⟩, ⟨touch_wellFormed he h.ranges, h.affinity⟩, rfl, rfl⟩
        · intro range group hlocation
          obtain ⟨touched, htouched, hgroup⟩ := Option.bind_eq_some_iff.mp hlocation
          obtain ⟨group', hget, hpair⟩ := Option.map_eq_some_iff.mp hgroup
          obtain ⟨rfl, rfl⟩ := Prod.mk.inj hpair
          obtain rfl := Option.some.inj htouched
          exact ⟨key, hmem, by simpa using hne, ⟨e, he, hcontains, rfl⟩, hget⟩
        · intro hlocation other hother _ range hrange
          rw [hcovers other hother range hrange]
          have hnone := Option.bind_eq_none_iff.mp hlocation _ rfl
          exact Option.map_eq_none_iff.mp hnone
      · dsimp only
        rw [hmiss.2]
        refine ⟨⟨fun range group hlocation => absurd hlocation.symm (Option.some_ne_none _), ?_⟩,
          h, rfl, rfl⟩
        intro _ other hother _ range hrange
        obtain ⟨e, he, hcontains, -⟩ := hrange
        rw [hkeys other hother] at hcontains
        exact absurd hcontains (hmiss.1 e he)

/-! ## Connections -/

/-- The endpoint serves a request: it is not cooling down and has a healthy connection. -/
structure Serves (snapshot : Snapshot) (target : Target) : Prop where
  not_isCoolingDown : snapshot.isCoolingDown target.address = false
  present : snapshot.getIfPresent target.address = some target.connection
  isHealthy : target.connection.isHealthy = true

/-- The transaction of the request has an affinity to the endpoint, which serves it. -/
structure Pinned (router : Router) (snapshot : Snapshot) (context : RoutingContext)
    (target : Target) : Prop where
  useTransactionAffinity : context.useTransactionAffinity = true
  affinity : ∃ transactionId ∈ context.transactionId,
    router.getTransactionAffinity transactionId = some target.address
  serves : Serves snapshot target

/-- The tablet is routable, and its endpoint serves a request. -/
structure Direct (snapshot : Snapshot) (tablet : Tablet) (target : Target) : Prop where
  address : target.address = tablet.serverAddress
  isTabletRoutable : snapshot.isTabletRoutable tablet = true
  present : snapshot.getIfPresent target.address = some target.connection
  isHealthy : target.connection.isHealthy = true

variable {router : Router} {snapshot : Snapshot} {context : RoutingContext} {target : Target}
  {capacity : ℕ}

theorem resolveAffinityConnection_eq_some :
    router.resolveAffinityConnection snapshot context = some target ↔
      Pinned router snapshot context target := by
  rw [Router.resolveAffinityConnection]
  cases huse : context.useTransactionAffinity with
  | false =>
      refine iff_of_false (Option.some_ne_none target).symm fun h => ?_
      exact absurd (huse.symm.trans h.useTransactionAffinity) Bool.false_ne_true
  | true =>
      simp only [Bool.not_true, Bool.false_eq_true, if_false, Option.bind_eq_bind,
        Option.bind_eq_some_iff]
      constructor
      · rintro ⟨transactionId, hid, address, haffinity, hserves⟩
        split_ifs at hserves with hcooling
        obtain ⟨connection, hconnection, htarget⟩ := Option.bind_eq_some_iff.mp hserves
        obtain rfl := Option.some.inj htarget
        obtain ⟨hpresent, hhealthy⟩ := Option.filter_eq_some_iff.mp hconnection
        exact ⟨huse, ⟨transactionId, hid, haffinity⟩, Bool.eq_false_iff.mpr hcooling, hpresent,
          hhealthy⟩
      · intro h
        obtain ⟨transactionId, hid, haffinity⟩ := h.affinity
        refine ⟨transactionId, hid, target.address, haffinity, ?_⟩
        rw [h.serves.not_isCoolingDown, if_neg Bool.false_ne_true]
        exact Option.bind_eq_some_iff.mpr ⟨target.connection,
          Option.filter_eq_some_iff.mpr ⟨h.serves.present, h.serves.isHealthy⟩, rfl⟩

theorem getRoutableConnection_eq_some {tablet : Tablet} :
    snapshot.getRoutableConnection tablet = some target ↔ Direct snapshot tablet target := by
  rw [Snapshot.getRoutableConnection]
  cases hroutable : snapshot.isTabletRoutable tablet with
  | false =>
      refine iff_of_false (Option.some_ne_none target).symm fun h => ?_
      exact absurd (hroutable.symm.trans h.isTabletRoutable) Bool.false_ne_true
  | true =>
      rw [Bool.not_true, if_neg Bool.false_ne_true, Option.map_eq_some_iff]
      constructor
      · rintro ⟨connection, hconnection, rfl⟩
        obtain ⟨hpresent, hhealthy⟩ := Option.filter_eq_some_iff.mp hconnection
        exact ⟨rfl, hroutable, hpresent, hhealthy⟩
      · intro h
        refine ⟨target.connection, Option.filter_eq_some_iff.mpr ⟨?_, h.isHealthy⟩, ?_⟩
        · rw [← h.address]
          exact h.present
        · rw [← h.address]

/-- The affinity of the transaction to the address is recorded if the request asks for it. -/
inductive Records (router : Router) (context : RoutingContext) (address : String) : Router → Prop
  | unused (h : context.useTransactionAffinity = true → context.transactionId = none) :
      Records router context address router
  | recorded {transactionId : Bytes} {recorded : Router}
      (huse : context.useTransactionAffinity = true)
      (hid : transactionId ∈ context.transactionId)
      (hrecord : router.recordTransactionAffinity transactionId address = some recorded) :
      Records router context address recorded

/-- The connection is that of the affinity, or that of the selected tablet, or the default one. -/
inductive Connects (router : Router) (snapshot : Snapshot) (context : RoutingContext)
    (selectedTablet : Option Tablet) : Option Target → TargetConnection → Prop
  | affinity (target : Target) :
      Connects router snapshot context selectedTablet (some target)
        ⟨target, some target.address, router⟩
  | direct {tablet : Tablet} {target : Target} {recorded : Router}
      (hselected : tablet ∈ selectedTablet) (hdirect : Direct snapshot tablet target)
      (hrecords : Records router context target.address recorded) :
      Connects router snapshot context selectedTablet none
        ⟨target, some target.address, recorded⟩
  | default (h : ∀ tablet ∈ selectedTablet, ∀ target, ¬Direct snapshot tablet target) :
      Connects router snapshot context selectedTablet none ⟨router.defaultConnection, none, router⟩

theorem resolveTargetConnection_spec (h : router.Valid capacity) (snapshot : Snapshot)
    (context : RoutingContext) (affinityConnection : Option Target)
    (selectedTablet : Option Tablet) :
    ∃ result, router.resolveTargetConnection snapshot context affinityConnection selectedTablet =
        some result ∧ result.router.Valid capacity ∧
      Connects router snapshot context selectedTablet affinityConnection result := by
  unfold Router.resolveTargetConnection
  cases affinityConnection with
  | some target => exact ⟨_, rfl, h, .affinity target⟩
  | none =>
      cases hdirect : selectedTablet.bind snapshot.getRoutableConnection with
      | none =>
          refine ⟨_, rfl, h, .default fun tablet hselected target hdirect' => ?_⟩
          have hnone := Option.bind_eq_none_iff.mp hdirect tablet hselected
          rw [getRoutableConnection_eq_some.mpr hdirect'] at hnone
          cases hnone
      | some target =>
          obtain ⟨tablet, hselected, hroutable⟩ := Option.bind_eq_some_iff.mp hdirect
          have htarget := getRoutableConnection_eq_some.mp hroutable
          cases hid : context.transactionId with
          | none => exact ⟨_, rfl, h, .direct hselected htarget (.unused fun _ => hid)⟩
          | some transactionId =>
              cases huse : context.useTransactionAffinity with
              | false =>
                  refine ⟨_, rfl, h, .direct hselected htarget (.unused fun htrue => ?_)⟩
                  exact absurd (huse.symm.trans htrue) Bool.false_ne_true
              | true =>
                  obtain ⟨recorded, hrecord, hvalid, -⟩ :=
                    h.recordTransactionAffinity transactionId target.address
                  refine ⟨⟨target, some target.address, recorded⟩, ?_, hvalid,
                    .direct hselected htarget (.recorded huse hid hrecord)⟩
                  simp [hrecord]

/-! ## Hints -/

/-- The tablet is reported as one that was not considered, or that cannot be used. -/
def isSkipped (snapshot : Snapshot) (selectedTabletUid : Option UInt64)
    (options : Option DirectedReadOptions) (tablet : Tablet) : Bool :=
  (tablet.skip || !snapshot.isTabletRoutable tablet) &&
    selectedTabletUid ≠ some tablet.tabletUid &&
    (options.bind DirectedReadOptions.replicas).all (matchesReplicas tablet)

/-- The shortcut without any trouble agrees with the check of all tablets. -/
theorem collectSkippedTablets_eq (snapshot : FlaggedSnapshot) (group : CachedGroup)
    (selectedTabletUid : Option UInt64) (options : Option DirectedReadOptions) :
    snapshot.collectSkippedTablets group selectedTabletUid options =
      (group.tablets.filter (isSkipped snapshot.toSnapshot selectedTabletUid options)).map
        fun tablet => ⟨tablet.tabletUid, tablet.incarnation⟩ := by
  rw [FlaggedSnapshot.collectSkippedTablets]
  dsimp only
  split_ifs with hshortcut
  · simp only [Bool.and_eq_true, Bool.not_eq_true', List.any_eq_false, Bool.or_eq_true,
      not_or, Bool.not_eq_true] at hshortcut
    obtain ⟨⟨⟨hskip, hempty⟩, hevictions⟩, hfailure⟩ := hshortcut
    rw [eq_comm, List.map_eq_nil_iff, List.filter_eq_nil_iff]
    intro tablet hmem
    have hroutable : snapshot.isTabletRoutable tablet = true := by
      rw [Snapshot.isTabletRoutable, (hskip tablet hmem).2, snapshot.not_isCoolingDown hempty,
        snapshot.not_isEvicted hevictions, hfailure tablet hmem]
      rfl
    simp [isSkipped, (hskip tablet hmem).1, hroutable]
  · rfl

/-- The hint names the range that contains the key and the selected tablet, or the key itself. -/
structure IsHint (snapshot : Snapshot) (request : RouteRequest)
    (location : Option (CachedRange × CachedGroup)) (selectedTablet : Option Tablet)
    (hint : RoutingHint) : Prop where
  databaseId : hint.databaseId = request.databaseId
  operationUid : hint.operationUid = request.operationUid
  schemaGeneration : hint.schemaGeneration = request.schemaGeneration.getD []
  clientLocation : hint.clientLocation = request.clientLocation.getD ""
  hit : ∀ range group, location = some (range, group) →
    hint.key = range.startKey ∧ hint.limitKey = range.limitKey ∧
      hint.groupUid = range.groupUid ∧ hint.splitId = range.splitId ∧
      hint.tabletUid = (selectedTablet.map Tablet.tabletUid).getD 0 ∧
      hint.skippedTabletUid = (group.tablets.filter (isSkipped snapshot
        (selectedTablet.map Tablet.tabletUid) request.directedReadOptions)).map
          fun tablet => ⟨tablet.tabletUid, tablet.incarnation⟩
  miss : location = none → request.context.routingKey = some hint.key ∧ hint.limitKey = [] ∧
    hint.groupUid = 0 ∧ hint.splitId = 0 ∧ hint.tabletUid = 0 ∧ hint.skippedTabletUid = []

theorem setOptional_eq (hint : RoutingHint) (hgeneration : hint.schemaGeneration = [])
    (hlocation : hint.clientLocation = "") (schemaGeneration : Option Bytes)
    (clientLocation : Option String) :
    hint.setOptional schemaGeneration clientLocation =
      { hint with
        schemaGeneration := schemaGeneration.getD []
        clientLocation := clientLocation.getD "" } := by
  have hempty : ∀ location : String, location.isEmpty = true → location = "" :=
    fun location h => String.isEmpty_iff.mp h
  rcases hint with ⟨_, _, generation, _, _, _, _, _, _, location⟩
  obtain rfl : generation = [] := hgeneration
  obtain rfl : location = "" := hlocation
  cases schemaGeneration <;> cases clientLocation <;>
    simp only [RoutingHint.setOptional, Option.getD_some, Option.getD_none]
  all_goals
    split_ifs with h
    · rw [hempty _ h]
    · rfl

theorem buildRoutingHint_spec {location : Option (CachedRange × CachedGroup)}
    (snapshot : FlaggedSnapshot) (request : RouteRequest) (selectedTablet : Option Tablet)
    (hlocated : location ≠ none → ∃ key ∈ request.context.routingKey, key ≠ []) :
    (snapshot.buildRoutingHint request.hintParams location selectedTablet = none ↔
      request.databaseId = 0 ∨ ∀ key ∈ request.context.routingKey, key = []) ∧
    ∀ hint, snapshot.buildRoutingHint request.hintParams location selectedTablet = some hint →
      IsHint snapshot.toSnapshot request location selectedTablet hint := by
  have hparams : request.hintParams.databaseId = request.databaseId := rfl
  rw [FlaggedSnapshot.buildRoutingHint, hparams]
  by_cases hid : request.databaseId = 0
  · rw [if_pos hid]
    exact ⟨iff_of_true rfl (.inl hid), fun hint h => absurd h.symm (Option.some_ne_none hint)⟩
  rw [if_neg hid]
  dsimp only
  cases hkey : request.hintParams.routingKey.filter (· ≠ []) with
  | none =>
      have hempty : ∀ key ∈ request.context.routingKey, key = [] := fun key hmem => by
        have hno := Option.filter_eq_none_iff.mp hkey key hmem
        simpa using hno
      have hlocation : location = none := by
        by_contra hsome
        obtain ⟨key, hmem, hne⟩ := hlocated hsome
        exact hne (hempty key hmem)
      rw [hlocation]
      exact ⟨iff_of_true rfl (.inr hempty), fun hint h => absurd h.symm (Option.some_ne_none hint)⟩
  | some key =>
      obtain ⟨hmem, hne⟩ := Option.filter_eq_some_iff.mp hkey
      rw [Option.isNone_some, Bool.and_false, if_neg Bool.false_ne_true, setOptional_eq]
      · refine ⟨iff_of_false (Option.some_ne_none _) ?_, ?_⟩
        · rintro (hzero | hempty)
          · exact hid hzero
          · simp [hempty key hmem] at hne
        · intro hint hhint
          obtain rfl := Option.some.inj hhint
          refine ⟨?_, ?_, rfl, rfl, ?_, ?_⟩
          · cases location <;> rfl
          · cases location <;> rfl
          · rintro range group rfl
            exact ⟨rfl, rfl, rfl, rfl, rfl, collectSkippedTablets_eq snapshot group _ _⟩
          · rintro rfl
            exact ⟨hmem, rfl, rfl, rfl, rfl, rfl⟩
      · cases location <;> rfl
      · cases location <;> rfl

/-! ## Resolution -/

/-- A tablet is selected among those of the group that contains the key, if one that is
considered is routable. -/
structure Selects (snapshot : Snapshot) (request : RouteRequest)
    (location : Option (CachedRange × CachedGroup)) (selectedTablet : Option Tablet) : Prop where
  routable : ∀ tablet ∈ selectedTablet, ∃ range group, location = some (range, group) ∧
    tablet ∈ considered group request.context.preferLeader
      (request.directedReadOptions.bind DirectedReadOptions.replicas) ∧
    snapshot.isTabletRoutable tablet = true
  complete : selectedTablet = none → ∀ range group, location = some (range, group) →
    ∀ tablet ∈ considered group request.context.preferLeader
      (request.directedReadOptions.bind DirectedReadOptions.replicas),
      snapshot.isTabletRoutable tablet = false

theorem selectTablet_spec (snapshot : Snapshot) (location : Option (CachedRange × CachedGroup))
    (request : RouteRequest) (draws : Draws) :
    ∃ selected, selectTablet snapshot location request draws = .ok selected ∧
      Selects snapshot request location selected := by
  cases location with
  | none =>
      refine ⟨none, rfl, ?_, ?_⟩
      · intro tablet hmem
        cases hmem
      · intro _ range group hlocation
        cases hlocation
  | some location =>
      obtain ⟨range, group⟩ := location
      obtain ⟨index, hselect, hchosen, hcomplete⟩ := selectHealthyTablet_spec snapshot range group
        request.context.preferLeader request.directedReadOptions draws
      have hresult : selectTablet snapshot (some (range, group)) request draws =
          .ok (index.bind fun index => group.tablets[index]?) := by
        simp only [selectTablet, hselect]
        rfl
      refine ⟨_, hresult, ?_, ?_⟩
      · intro tablet hmem
        obtain ⟨index, hindex, hget⟩ := Option.bind_eq_some_iff.mp hmem
        obtain ⟨tablet', hget', hconsidered, hroutable⟩ := hchosen index hindex
        obtain rfl := Option.some.inj (hget.symm.trans hget')
        exact ⟨range, group, rfl, hconsidered, hroutable⟩
      · intro hnone range' group' hlocation tablet hmem
        cases hlocation
        refine hcomplete ?_ tablet hmem
        cases index with
        | none => rfl
        | some index =>
            obtain ⟨tablet', hget, -⟩ := hchosen index rfl
            rw [Option.bind_some, hget] at hnone
            cases hnone

/-- The route of a request, by what is known of its key and the tablet that is selected. -/
structure IsRoute (router : Router) (observed : Observations) (request : RouteRequest)
    (location : Option (CachedRange × CachedGroup)) (selectedTablet : Option Tablet)
    (resolution : Resolution) : Prop where
  located : Located router request.context.routingKey location
  selects : Selects observed.selection request location selectedTablet
  pinned : ∀ target, Pinned router observed.affinity request.context target →
    resolution.route.connection = target ∧ resolution.realTraffic = some target.address ∧
      resolution.router.affinityTracker = router.affinityTracker
  unpinned : (∀ target, ¬Pinned router observed.affinity request.context target) →
    (∃ tablet ∈ selectedTablet,
      Direct observed.connection tablet resolution.route.connection ∧
      resolution.realTraffic = some tablet.serverAddress ∧
      (request.context.useTransactionAffinity = true → 0 < router.affinityTracker.maxCapacity →
        ∀ transactionId ∈ request.context.transactionId, transactionId ≠ [] →
          resolution.router.getTransactionAffinity transactionId = some tablet.serverAddress)) ∨
    ((∀ tablet ∈ selectedTablet, ∀ target, ¬Direct observed.connection tablet target) ∧
      resolution.route.connection = router.defaultConnection ∧ resolution.realTraffic = none ∧
      resolution.router.affinityTracker = router.affinityTracker)
  hint_none : resolution.route.routingHint = none ↔
    request.databaseId = 0 ∨ ∀ key ∈ request.context.routingKey, key = []
  hint : ∀ hint, resolution.route.routingHint = some hint →
    IsHint observed.hint.toSnapshot request location selectedTablet hint

/-- The steps of a resolution, of which none panics. -/
theorem resolveRoute_steps (h : router.Valid capacity) (observed : Observations) (request : RouteRequest) :
    ∃ middle location selected result, middle.Valid capacity ∧
      middle.affinityTracker = router.affinityTracker ∧
      middle.defaultConnection = router.defaultConnection ∧ result.router.Valid capacity ∧
      Located router request.context.routingKey location ∧
      Selects observed.selection request location selected ∧
      Connects middle observed.connection request.context selected
        (router.resolveAffinityConnection observed.affinity request.context) result ∧
      router.resolveRoute observed request = some ⟨⟨result.connection,
        observed.hint.buildRoutingHint request.hintParams location selected⟩,
        result.realTraffic, result.router⟩ := by
  obtain ⟨hlocated, hvalid, htracker, hdefault⟩ :=
    findRangeAndGroup_spec h request.context.routingKey
  cases hfind : router.findRangeAndGroup request.context.routingKey with
  | mk location middle =>
      rw [hfind] at hlocated hvalid htracker hdefault
      obtain ⟨selected, hselect, hselects⟩ :=
        selectTablet_spec observed.selection location request observed.draws
      obtain ⟨result, hresult, hnext, hconnects⟩ := resolveTargetConnection_spec hvalid
        observed.connection request.context
        (router.resolveAffinityConnection observed.affinity request.context) selected
      refine ⟨middle, location, selected, result, hvalid, htracker, hdefault, hnext, hlocated, hselects,
        hconnects, ?_⟩
      simp only [Router.resolveRoute, hfind, hselect, Except.toOption, Option.bind_eq_bind,
        Option.bind_some, hresult, Option.pure_def]

theorem Records.getTransactionAffinity {recorded : Router} {address : String}
    (hrecords : Records router context address recorded) (h : router.Valid capacity)
    (huse : context.useTransactionAffinity = true)
    (hcapacity : 0 < capacity) {transactionId : Bytes}
    (hid : transactionId ∈ context.transactionId) (hne : transactionId ≠ []) :
    recorded.getTransactionAffinity transactionId = some address := by
  cases hrecords with
  | unused hunused =>
      rw [hunused huse] at hid
      cases hid
  | recorded _ hid' hrecord =>
      obtain rfl := Option.some.inj (hid'.symm.trans hid)
      exact getTransactionAffinity_record h hne hcapacity hrecord

theorem resolveRoute_spec (h : router.Valid capacity) (observed : Observations) (request : RouteRequest) :
    ∃ location selected resolution, router.resolveRoute observed request = some resolution ∧
      resolution.router.Valid capacity ∧ IsRoute router observed request location selected resolution := by
  obtain ⟨middle, location, selected, result, hvalid, htracker, hdefault, hnext, hlocated,
    hselects, hconnects, hresolve⟩ := resolveRoute_steps h observed request
  have hkey : location ≠ none → ∃ key ∈ request.context.routingKey, key ≠ [] := by
    intro hsome
    obtain ⟨⟨range, group⟩, hlocation⟩ := Option.ne_none_iff_exists'.mp hsome
    obtain ⟨key, hmem, hne, -⟩ := hlocated.hit range group hlocation
    exact ⟨key, hmem, hne⟩
  obtain ⟨hnone, hhint⟩ := buildRoutingHint_spec observed.hint request selected hkey
  have hmax : router.affinityTracker.maxCapacity = capacity := by
    obtain ⟨m, order, hrepresents⟩ := h.affinity
    exact hrepresents.capacity
  refine ⟨location, selected, _, hresolve, hnext, hlocated, hselects, ?_, ?_, hnone, hhint⟩
  · intro target hpinned
    rw [resolveAffinityConnection_eq_some.mpr hpinned] at hconnects
    cases hconnects
    exact ⟨rfl, rfl, htracker⟩
  · intro hnot
    have haffinity : router.resolveAffinityConnection observed.affinity request.context = none :=
      Option.eq_none_iff_forall_ne_some.mpr fun target htarget =>
        hnot target (resolveAffinityConnection_eq_some.mp htarget)
    rw [haffinity] at hconnects
    cases hconnects with
    | direct hselected hdirect hrecords =>
        refine .inl ⟨_, hselected, hdirect, congrArg some hdirect.address, ?_⟩
        intro huse hcapacity transactionId hid hne
        rw [← hdirect.address]
        exact hrecords.getTransactionAffinity hvalid huse (hmax ▸ hcapacity) hid hne
    | default hmissing => exact .inr ⟨hmissing, hdefault, rfl, htracker⟩

/-! ## Runs -/

theorem step_valid (h : router.Valid capacity) (call : RouterCall) :
    ∃ route next, router.step call = some (route, next) ∧ next.Valid capacity := by
  cases call with
  | resolveRoute observed request =>
      obtain ⟨-, -, resolution, hresolve, hvalid, -⟩ := resolveRoute_spec h observed request
      exact ⟨_, _, by rw [Router.step, hresolve]; rfl, hvalid⟩
  | clearTransactionAffinity transactionId =>
      exact ⟨none, _, rfl, h.clearTransactionAffinity transactionId⟩
  | addRanges cacheUpdate =>
      have hranges := step_wellFormed (.addRanges cacheUpdate) h.ranges
      exact ⟨none, _, rfl, hranges, h.affinity⟩
  | clearRanges =>
      have hranges := step_wellFormed .clear h.ranges
      exact ⟨none, _, rfl, hranges, h.affinity⟩

theorem run_valid (h : router.Valid capacity) (calls : List RouterCall) :
    ∃ routes final, router.run calls = some (routes, final) ∧ final.Valid capacity := by
  induction calls generalizing router with
  | nil => exact ⟨[], router, rfl, h⟩
  | cons call calls ih =>
      obtain ⟨route, next, hstep, hnext⟩ := step_valid h call
      obtain ⟨routes, final, hrun, hfinal⟩ := ih hnext
      exact ⟨route :: routes, final, by simp [Router.run, hstep, hrun], hfinal⟩

/-- No call on a router panics. After any calls a request with affinity to an endpoint that serves
it is routed there, another one directly to the selected tablet if that can be reached, and else to
the default connection. A tablet is selected if one that is considered is routable. The hint names
the range that contains the key, the same tablet, and all tablets that were passed over. -/
theorem run_isRoute (maxAffinityEntries : ℕ) (defaultConnection : Target)
    (calls : List RouterCall) (observed : Observations) (request : RouteRequest) :
    ∃ routes router, (Router.new maxAffinityEntries defaultConnection).run calls =
        some (routes, router) ∧
      ∃ location selected resolution, router.resolveRoute observed request = some resolution ∧
        IsRoute router observed request location selected resolution := by
  obtain ⟨routes, router, hrun, hvalid⟩ :=
    run_valid (new_valid maxAffinityEntries defaultConnection) calls
  obtain ⟨location, selected, resolution, hresolve, -, hroute⟩ :=
    resolveRoute_spec hvalid observed request
  exact ⟨routes, router, hrun, location, selected, resolution, hresolve, hroute⟩

end GoogleCloudRust.LocationRouter
